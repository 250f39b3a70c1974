import Z80.Register.Bank
import Z80.Trace

/-!
# Microprograms

What the processor does on the bus while it works on one thing. A microprogram is a tree of
accesses: it ends with a value, gives up on an opcode that means nothing, or makes an access and
goes on with what the bus answers. It knows no bus. Running it on one answers its accesses until it
ends or an access fails, and a failed access is the last one.

The registers change in the course of the work, and an access that fails leaves them as they stood
when it was made. So each place where the work may stop short names the registers at that place.

Main statements: running a sequence is running its parts in turn (`Microprogram.run_bind`), what
holds of every value a microprogram can end with holds of the value it ends with on any bus
(`Microprogram.Yields.of_run`), and what holds of the registers and the access wherever it can stop
short holds of the registers it leaves (`Microprogram.Stops.of_run`) and of every access it makes
(`Microprogram.Stops.of_mem_accesses`).
-/

namespace Z80

/-- A tree of bus accesses with a value of type `α` at the end of every path. -/
inductive Microprogram (α : Type) where
  | done (value : α)
  | illegal (now : Registers) (cause : IllegalOpcode)
  | read (now : Registers) (address : Word) (next : Byte → Microprogram α)
  | write (now : Registers) (address : Word) (value : Byte) (next : Microprogram α)
  | acknowledge (now : Registers) (next : Byte → Microprogram α)
  | report (r : Report) (next : Microprogram α)

/-- An end before its time: what caused it, and the registers as they stood then. -/
structure Abort where
  fault : Fault
  registers : Registers
  deriving DecidableEq, Repr

/-- How a microprogram ended, the bus afterwards, and what was seen. -/
structure Completion (β α : Type) where
  /-- The value it ended with, or how it stopped short. -/
  ending : Except Abort α
  /-- The bus afterwards, which keeps the effect of every access that was made. -/
  bus : β
  trace : Trace

namespace Completion

variable {α β : Type}

/-- The completion as it is when one more thing was seen before it. -/
def after (c : Completion β α) (seen : Observation) : Completion β α :=
  { c with trace := seen :: c.trace }

/-- The value it ended with, or the fault that ended it. -/
def result (c : Completion β α) : Except Fault α := c.ending.mapError Abort.fault

end Completion

namespace Microprogram

variable {α β γ : Type}

/-- One microprogram after the other, which may depend on the value of the first. -/
def bind : Microprogram α → (α → Microprogram γ) → Microprogram γ
  | done value, f => f value
  | illegal now cause, _ => illegal now cause
  | read now address next, f => read now address fun value => (next value).bind f
  | write now address value next, f => write now address value (next.bind f)
  | acknowledge now next, f => acknowledge now fun value => (next value).bind f
  | report r next, f => report r (next.bind f)

instance : Monad Microprogram where
  pure := done
  bind := bind

def readByte (now : Registers) (address : Word) : Microprogram Byte := read now address done

def writeByte (now : Registers) (address : Word) (value : Byte) : Microprogram Unit :=
  write now address value (done ())

def acknowledgeByte (now : Registers) : Microprogram Byte := acknowledge now done

def tell (r : Report) : Microprogram Unit := report r (done ())

def tellRecords : List Record → Microprogram Unit
  | [] => done ()
  | r :: rest => report (.record r) (tellRecords rest)

/-- Reads the word at an address and the address after it, the low byte first. -/
def readWord (now : Registers) (address : Word) : Microprogram Word := do
  let low ← readByte now address
  let high ← readByte now (address + 1)
  return Word.ofHalves high low

/-- Writes a word to an address and the address after it, the low byte first. -/
def writeWord (now : Registers) (address value : Word) : Microprogram Unit := do
  writeByte now address value.low
  writeByte now (address + 1) value.high

/-- Takes so many bytes from an interrupting device. -/
def acknowledgeBytes (now : Registers) : Nat → Microprogram (List Byte)
  | 0 => return []
  | n + 1 => do
    let value ← acknowledgeByte now
    let rest ← acknowledgeBytes now n
    return value :: rest

/-- The same work, but where it stops short the registers are put right. -/
def onAbort (repair : Registers → Registers) : Microprogram α → Microprogram α
  | done value => done value
  | illegal now cause => illegal (repair now) cause
  | read now address next => read (repair now) address fun value => (next value).onAbort repair
  | write now address value next => write (repair now) address value (next.onAbort repair)
  | acknowledge now next => acknowledge (repair now) fun value => (next value).onAbort repair
  | report r next => report r (next.onAbort repair)

/-- Runs a microprogram on a bus. The first access that fails ends it with that failure. -/
def run [Bus β] : Microprogram α → β → Completion β α
  | done value, bus => ⟨.ok value, bus, []⟩
  | illegal now cause, bus => ⟨.error ⟨.illegal cause, now⟩, bus, []⟩
  | read now address next, bus =>
    match Bus.read bus address with
    | (.ok value, bus) => ((next value).run bus).after (.access (.read address value))
    | (.error error, bus) =>
      ⟨.error ⟨.bus error, now⟩, bus, [.access (.failed (.read address) error)]⟩
  | write now address value next, bus =>
    match Bus.write bus address value with
    | (.ok _, bus) => (next.run bus).after (.access (.write address value))
    | (.error error, bus) =>
      ⟨.error ⟨.bus error, now⟩, bus, [.access (.failed (.write address value) error)]⟩
  | acknowledge now next, bus =>
    match Bus.acknowledge bus with
    | (.ok value, bus) => ((next value).run bus).after (.access (.acknowledge value))
    | (.error error, bus) =>
      ⟨.error ⟨.bus error, now⟩, bus, [.access (.failed .acknowledge error)]⟩
  | report r next, bus => (next.run bus).after (.report r)

/-- The condition holds of every value a microprogram can end with. -/
def Yields (P : α → Prop) : Microprogram α → Prop
  | done value => P value
  | illegal _ _ => True
  | read _ _ next => ∀ value, (next value).Yields P
  | write _ _ _ next => next.Yields P
  | acknowledge _ next => ∀ value, (next value).Yields P
  | report _ next => next.Yields P

/-- The condition holds of the registers and the access wherever a microprogram can stop short. There
is no access where it gives up on an opcode. -/
def Stops (P : Registers → Option Request → Prop) : Microprogram α → Prop
  | done _ => True
  | illegal now _ => P now none
  | read now address next => P now (some (.read address)) ∧ ∀ value, (next value).Stops P
  | write now address value next => P now (some (.write address value)) ∧ next.Stops P
  | acknowledge now next => P now (some .acknowledge) ∧ ∀ value, (next value).Stops P
  | report _ next => next.Stops P

/-- To return a value is to be done with it. -/
@[simp] theorem pure_eq (value : α) : (pure value : Microprogram α) = done value := rfl

/-- A sequence is put together by `bind`. -/
@[simp] theorem bind_eq (p : Microprogram α) (f : α → Microprogram γ) : p >>= f = p.bind f := rfl

/-- Nothing is added by going on with the value that is there. -/
@[simp] theorem bind_done (p : Microprogram α) : p.bind done = p := by
  induction p with
  | done value => rfl
  | illegal now cause => rfl
  | read now address next ih => exact congrArg (read now address) (funext ih)
  | write now address value next ih => exact congrArg (write now address value) ih
  | acknowledge now next ih => exact congrArg (acknowledge now) (funext ih)
  | report r next ih => exact congrArg (report r) ih

/-- It makes no difference how a sequence of three is bracketed. -/
theorem bind_assoc {δ : Type} (p : Microprogram α) (f : α → Microprogram γ)
    (g : γ → Microprogram δ) : (p.bind f).bind g = p.bind fun value => (f value).bind g := by
  induction p with
  | done value => rfl
  | illegal now cause => rfl
  | read now address next ih => exact congrArg (read now address) (funext ih)
  | write now address value next ih => exact congrArg (write now address value) ih
  | acknowledge now next ih => exact congrArg (acknowledge now) (funext ih)
  | report r next ih => exact congrArg (report r) ih

/-- A sequence runs its first part, and then its second part on the bus the first has left. -/
theorem run_bind [Bus β] (p : Microprogram α) (f : α → Microprogram γ) (bus : β) :
    (p.bind f).run bus =
      match (p.run bus).ending with
      | .ok value =>
        let rest := (f value).run (p.run bus).bus
        { rest with trace := (p.run bus).trace ++ rest.trace }
      | .error abort => ⟨.error abort, (p.run bus).bus, (p.run bus).trace⟩ := by
  induction p generalizing bus with
  | done value => rfl
  | illegal now cause => rfl
  | read now address next ih =>
    simp only [bind, run]
    split
    case h_1 value bus' _ =>
      rw [ih value bus']
      simp only [Completion.after]
      -- The access comes before all that follows, however that ends.
      split <;> rfl
    case h_2 => rfl
  | write now address value next ih =>
    simp only [bind, run]
    split
    case h_1 _ bus' _ =>
      rw [ih bus']
      simp only [Completion.after]
      split <;> rfl
    case h_2 => rfl
  | acknowledge now next ih =>
    simp only [bind, run]
    split
    case h_1 value bus' _ =>
      rw [ih value bus']
      simp only [Completion.after]
      split <;> rfl
    case h_2 => rfl
  | report r next ih =>
    simp only [bind, run]
    rw [ih bus]
    simp only [Completion.after]
    split <;> rfl

/-- What holds of the values of the second part, for all values that the first can yield, holds of
those of the sequence. -/
theorem Yields.bind {P : α → Prop} {Q : γ → Prop} {p : Microprogram α} {f : α → Microprogram γ}
    (hp : p.Yields P) (hf : ∀ value, P value → (f value).Yields Q) : (p.bind f).Yields Q := by
  induction p with
  | done value => exact hf value hp
  | illegal now cause => exact trivial
  | read now address next ih => exact fun value => ih value (hp value)
  | write now address value next ih => exact ih hp
  | acknowledge now next ih => exact fun value => ih value (hp value)
  | report r next ih => exact ih hp

/-- What holds of every value holds of those that a microprogram can yield. -/
theorem Yields.of_forall {P : α → Prop} (h : ∀ value, P value) (p : Microprogram α) :
    p.Yields P := by
  induction p with
  | done value => exact h value
  | illegal now cause => exact trivial
  | read now address next ih => exact ih
  | write now address value next ih => exact ih
  | acknowledge now next ih => exact ih
  | report r next ih => exact ih

/-- What holds of the values that a microprogram can yield holds of the one that it ends with on a
bus. -/
theorem Yields.of_run [Bus β] {P : α → Prop} {p : Microprogram α} (hp : p.Yields P) {bus : β}
    {value : α} (h : (p.run bus).ending = .ok value) : P value := by
  induction p generalizing bus with
  | done v =>
    cases h
    exact hp
  | illegal now cause => cases h
  | read now address next ih =>
    simp only [run] at h
    split at h
    case h_1 v _ _ => exact ih v (hp v) h
    case h_2 => cases h
  | write now address v next ih =>
    simp only [run] at h
    split at h
    case h_1 => exact ih hp h
    case h_2 => cases h
  | acknowledge now next ih =>
    simp only [run] at h
    split at h
    case h_1 v _ _ => exact ih v (hp v) h
    case h_2 => cases h
  | report r next ih => exact ih hp h

/-- A sequence stops short where one of its parts does. -/
theorem Stops.bind {P : Registers → Option Request → Prop} {p : Microprogram α}
    {f : α → Microprogram γ} (hp : p.Stops P) (hf : ∀ value, (f value).Stops P) :
    (p.bind f).Stops P := by
  induction p with
  | done value => exact hf value
  | illegal now cause => exact hp
  | read now address next ih => exact ⟨hp.1, fun value => ih value (hp.2 value)⟩
  | write now address value next ih => exact ⟨hp.1, ih hp.2⟩
  | acknowledge now next ih => exact ⟨hp.1, fun value => ih value (hp.2 value)⟩
  | report r next ih => exact ih hp

/-- A condition on the places where a microprogram can stop short may be replaced by a weaker
one. -/
theorem Stops.imp {P Q : Registers → Option Request → Prop} {p : Microprogram α} (hp : p.Stops P)
    (h : ∀ now request, P now request → Q now request) : p.Stops Q := by
  induction p with
  | done value => exact trivial
  | illegal now cause => exact h now _ hp
  | read now address next ih => exact ⟨h now _ hp.1, fun value => ih value (hp.2 value)⟩
  | write now address value next ih => exact ⟨h now _ hp.1, ih hp.2⟩
  | acknowledge now next ih => exact ⟨h now _ hp.1, fun value => ih value (hp.2 value)⟩
  | report r next ih => exact ih hp

/-- What holds of all registers and accesses holds wherever a microprogram can stop short. -/
theorem Stops.of_forall {P : Registers → Option Request → Prop} (h : ∀ now request, P now request)
    (p : Microprogram α) : p.Stops P := by
  induction p with
  | done value => exact trivial
  | illegal now cause => exact h now _
  | read now address next ih => exact ⟨h now _, ih⟩
  | write now address value next ih => exact ⟨h now _, ih⟩
  | acknowledge now next ih => exact ⟨h now _, ih⟩
  | report r next ih => exact ih

/-- Where a microprogram that is put right stops short, it leaves what the repair makes of the
registers. -/
theorem Stops.onAbort {P Q : Registers → Option Request → Prop} {p : Microprogram α}
    {repair : Registers → Registers} (hp : p.Stops P)
    (h : ∀ now request, P now request → Q (repair now) request) : (p.onAbort repair).Stops Q := by
  induction p with
  | done value => exact trivial
  | illegal now cause => exact h now _ hp
  | read now address next ih => exact ⟨h now _ hp.1, fun value => ih value (hp.2 value)⟩
  | write now address value next ih => exact ⟨h now _ hp.1, ih hp.2⟩
  | acknowledge now next ih => exact ⟨h now _ hp.1, fun value => ih value (hp.2 value)⟩
  | report r next ih => exact ih hp

/-- Where a run stops short the condition holds, and there is no access there if the fault is an
opcode. -/
theorem Stops.of_run [Bus β] {P : Registers → Option Request → Prop} {p : Microprogram α}
    (hp : p.Stops P) {bus : β} {abort : Abort} (h : (p.run bus).ending = .error abort) :
    ∃ request, P abort.registers request ∧ (request = none ↔ abort.fault.kind = .decode) := by
  induction p generalizing bus with
  | done v => cases h
  | illegal now cause =>
    cases h
    -- An opcode without a meaning is the only fault that is no access.
    exact ⟨none, hp, fun _ => rfl, fun _ => rfl⟩
  | read now address next ih =>
    simp only [run] at h
    split at h
    case h_1 v _ _ => exact ih v (hp.2 v) h
    case h_2 =>
      cases h
      exact ⟨some _, hp.1, nofun, nofun⟩
  | write now address v next ih =>
    simp only [run] at h
    split at h
    case h_1 => exact ih hp.2 h
    case h_2 =>
      cases h
      exact ⟨some _, hp.1, nofun, nofun⟩
  | acknowledge now next ih =>
    simp only [run] at h
    split at h
    case h_1 v _ _ => exact ih v (hp.2 v) h
    case h_2 =>
      cases h
      exact ⟨some _, hp.1, nofun, nofun⟩
  | report r next ih => exact ih hp h

/-- What holds wherever a microprogram can stop short holds of every access that it makes. -/
theorem Stops.of_mem_accesses [Bus β] {P : Registers → Option Request → Prop}
    {p : Microprogram α} (hp : p.Stops P) {bus : β} {access : Access}
    (h : access ∈ (p.run bus).trace.accesses) : ∃ now, P now (some access.request) := by
  induction p generalizing bus with
  | done v => cases h
  | illegal now cause => cases h
  | read now address next ih =>
    simp only [run] at h
    split at h
    case h_1 v _ _ =>
      rcases List.mem_cons.mp h with rfl | h
      · exact ⟨now, hp.1⟩
      · exact ih v (hp.2 v) h
    case h_2 =>
      rcases List.mem_cons.mp h with rfl | h
      · exact ⟨now, hp.1⟩
      · cases h
  | write now address v next ih =>
    simp only [run] at h
    split at h
    case h_1 =>
      rcases List.mem_cons.mp h with rfl | h
      · exact ⟨now, hp.1⟩
      · exact ih hp.2 h
    case h_2 =>
      rcases List.mem_cons.mp h with rfl | h
      · exact ⟨now, hp.1⟩
      · cases h
  | acknowledge now next ih =>
    simp only [run] at h
    split at h
    case h_1 v _ _ =>
      rcases List.mem_cons.mp h with rfl | h
      · exact ⟨now, hp.1⟩
      · exact ih v (hp.2 v) h
    case h_2 =>
      rcases List.mem_cons.mp h with rfl | h
      · exact ⟨now, hp.1⟩
      · cases h
  | report r next ih => exact ih hp h

/-- What is put right where a microprogram stops short makes no difference to its values. -/
theorem Yields.onAbort {P : α → Prop} {p : Microprogram α} (hp : p.Yields P)
    (repair : Registers → Registers) : (p.onAbort repair).Yields P := by
  induction p with
  | done value => exact hp
  | illegal now cause => exact trivial
  | read now address next ih => exact fun value => ih value (hp value)
  | write now address value next ih => exact ih hp
  | acknowledge now next ih => exact fun value => ih value (hp value)
  | report r next ih => exact ih hp

end Microprogram

end Z80
