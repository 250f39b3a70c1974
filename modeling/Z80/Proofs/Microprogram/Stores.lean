import Z80.Proofs.Bus.Success
import Z80.Proofs.Microprogram.Completion
import Z80.Proofs.Microprogram.Phases

/-!
# Where a microprogram stores

On memory a read is always answered, so a microprogram without acknowledge cycles can stop short only
where it stores. Which addresses it stores to, and in which order, is said without a bus, whatever is
read (`Microprogram.Stores`). Then a run on memory is refused the first of these addresses that is
read-only, and completes if none is (`Microprogram.Stores.fault_run`).
-/

namespace Z80

/-- The fault that ended it, if one did. -/
def Completion.fault? {β α : Type} (c : Completion β α) : Option Fault :=
  match c.ending with
  | .ok _ => none
  | .error abort => some abort.fault

/-- What comes of storing to addresses in order: the first that is read-only is refused. -/
def Ram.refusal? (m : Ram) (addresses : List Word) : Option Fault :=
  (addresses.find? (· < m.romSize)).map fun address => .bus (.readOnly address)

/-- The first address in the read-only region is refused. -/
lemma Ram.refusal?_cons (m : Ram) (address : Word) (later : List Word) :
    m.refusal? (address :: later) =
      if address < m.romSize then some (.bus (.readOnly address)) else m.refusal? later := by
  unfold refusal?
  rw [List.find?_cons]
  by_cases readOnly : address < m.romSize
  · rw [decide_eq_true readOnly, if_pos readOnly]
    rfl
  · rw [decide_eq_false readOnly, if_neg readOnly]

namespace Microprogram

variable {α γ : Type}

/-- Whatever is read, bytes are stored to the addresses in order and to no others, and there is
neither an acknowledge cycle nor an opcode to give up on. -/
def Stores : Microprogram α → List Word → Prop
  | done _, addresses => addresses = []
  | illegal _ _, _ | acknowledge _ _, _ => False
  | read _ _ next, addresses => ∀ value, (next value).Stores addresses
  | write _ address _ next, addresses => ∃ later, addresses = address :: later ∧ next.Stores later
  | report _ next, addresses => next.Stores addresses

/-- A sequence stores what its first part stores, then what its second does. -/
lemma Stores.bind {p : Microprogram α} {f : α → Microprogram γ} {first later : List Word}
    (hp : p.Stores first) (hf : ∀ value, (f value).Stores later) :
    (p.bind f).Stores (first ++ later) := by
  induction p generalizing first with
  | done value =>
    cases hp
    exact hf value
  | illegal now cause => exact hp.elim
  | read now address next ih => exact fun value => ih value (hp value)
  | write now address value next ih =>
    obtain ⟨rest, rfl, hn⟩ := hp
    exact ⟨rest ++ later, rfl, ih hn⟩
  | acknowledge now next ih => exact hp.elim
  | report r next ih => exact ih hp

/-- What stores nothing adds nothing at the end. -/
lemma Stores.bind_nothing {p : Microprogram α} {f : α → Microprogram γ} {addresses : List Word}
    (hp : p.Stores addresses) (hf : ∀ value, (f value).Stores []) : (p.bind f).Stores addresses := by
  rw [← List.append_nil addresses]
  exact hp.bind hf

/-- Bytes that are supplied make no difference to what is stored. -/
lemma Stores.withSupplied {p : Microprogram α} {addresses : List Word} (hp : p.Stores addresses)
    (first : Word) (bytes : List Byte) : (p.withSupplied first bytes).Stores addresses := by
  induction p generalizing addresses with
  | done value => exact hp
  | illegal now cause => exact hp.elim
  | read now address next ih =>
    unfold Microprogram.withSupplied
    split
    case h_1 value _ => exact ih value (hp value)
    case h_2 => exact fun value => ih value (hp value)
  | write now address value next ih =>
    obtain ⟨later, rfl, hn⟩ := hp
    exact ⟨later, rfl, ih hn⟩
  | acknowledge now next ih => exact hp.elim
  | report r next ih => exact ih hp

/-- A run on memory is refused the first address that is read-only, and completes if none is. -/
theorem Stores.fault_run {p : Microprogram α} {addresses : List Word} (hp : p.Stores addresses)
    (m : Ram) : (p.run m).fault? = m.refusal? addresses := by
  induction p generalizing addresses m with
  | done value =>
    cases hp
    rfl
  | illegal now cause => exact hp.elim
  | read now address next ih => exact ih (m.peek address) (hp _) m
  | write now address value next ih =>
    obtain ⟨later, rfl, hn⟩ := hp
    rw [Ram.refusal?_cons]
    by_cases readOnly : address < m.romSize
    · have refused : Bus.write m address value = _ := Ram.write_readOnly readOnly
      rw [if_pos readOnly]
      simp only [run, refused]
      rfl
    · have written : Bus.write m address value = _ := Ram.write_ok readOnly
      rw [if_neg readOnly]
      simp only [run, written]
      exact ih hn { m with memory := m.memory.set address value }
  | acknowledge now next ih => exact hp.elim
  | report r next ih => exact ih hp m

section

variable {β : Type} [Bus β]

/-- What is put right where work stops short makes no difference to its fault. -/
lemma fault_onAbort (p : Microprogram α) (repair : Registers → Registers) (bus : β) :
    ((p.onAbort repair).run bus).fault? = (p.run bus).fault? := by
  rw [run_onAbort]
  unfold Completion.fault?
  cases (p.run bus).ending <;> rfl

/-- What comes after a part that completes decides the fault. -/
lemma Completes.fault_bind {p : Microprogram α} {f : α → Microprogram γ} {bus after : β} {value : α}
    {t : Trace} (hp : p.Completes bus value after t) :
    ((p.bind f).run bus).fault? = ((f value).run after).fault? := by
  rw [run_bind, hp]
  rfl

end

/-- What stores nothing makes no difference to the fault of a run on memory. -/
lemma fault_bind_nothing {p : Microprogram α} {f : α → Microprogram γ}
    (hf : ∀ value, (f value).Stores []) (m : Ram) :
    ((p.bind f).run m).fault? = (p.run m).fault? := by
  rw [run_bind]
  unfold Completion.fault?
  cases hp : (p.run m).ending with
  | error abort => rfl
  | ok value => exact (hf value).fault_run (p.run m).bus

end Microprogram

end Z80
