import Z80.Proofs.Microprogram.Failure
import Z80.Proofs.Microprogram.Footprint

/-!
# On the way through a microprogram

What a microprogram asks for after accesses that were completed (`Microprogram.Asks`), and what it ends
with after them (`Microprogram.Ends`). No bus is needed to say so. The log of a run asks for its next
access at every place (`Microprogram.asks_of_run`), and a sequence asks in its first part, or in its
second when the first has ended (`Microprogram.Asks.bind_inv`).

Main statement: two buses that complete the same accesses up to a write, which leaves them the same,
run the microprogram alike (`Microprogram.run_eq_of_asks`).
-/

namespace Z80

/-- In a log of one access there is no other, and none before it. -/
lemma Access.singleton_inv {only access : Access} {before later : List Access}
    (h : [only] = before ++ access :: later) : before = [] ∧ access = only := by
  cases before with
  | nil =>
    obtain ⟨rfl, -⟩ := List.cons.inj h
    exact ⟨rfl, rfl⟩
  | cons first before =>
    obtain ⟨-, rest⟩ := List.cons.inj h
    exact absurd rest.symm (List.append_ne_nil_of_right_ne_nil _ (List.cons_ne_nil _ _))

section

variable {β : Type} [Bus β] {bus middle after : β}

/-- A read was met with a byte that the bus gave. -/
lemma Request.meet_read_inv {address : Word} {value : Byte}
    (h : (Request.read address).meet bus = (.read address value, middle)) :
    Bus.read bus address = (.ok value, middle) := by
  simp only [meet] at h
  split at h
  case h_1 answer =>
    cases h
    exact answer
  case h_2 => cases h

/-- A write was met by a bus that took the byte. -/
lemma Request.meet_write_inv {address : Word} {value : Byte}
    (h : (Request.write address value).meet bus = (.write address value, middle)) :
    Bus.write bus address value = (.ok (), middle) := by
  simp only [meet] at h
  split at h
  case h_1 answer =>
    cases h
    exact answer
  case h_2 => cases h

/-- An acknowledge cycle was met with a byte that a device gave. -/
lemma Request.meet_acknowledge_inv {value : Byte}
    (h : Request.acknowledge.meet bus = (.acknowledge value, middle)) :
    Bus.acknowledge bus = (.ok value, middle) := by
  simp only [meet] at h
  split at h
  case h_1 answer =>
    cases h
    exact answer
  case h_2 => cases h

/-- The first of several requests is met first. -/
lemma Bus.perform_cons_inv {request : Request} {requests : List Request} {access : Access}
    {later : List Access} (h : Bus.perform bus (request :: requests) = (access :: later, after)) :
    ∃ middle, request.meet bus = (access, middle) ∧
      Bus.perform middle requests = (later, after) := by
  cases met : request.meet bus with
  | mk first middle =>
    cases rest : Bus.perform middle requests with
    | mk others last =>
      simp only [Bus.perform, met, rest] at h
      cases h
      exact ⟨middle, rfl, rest⟩

end

namespace Microprogram

variable {α β γ : Type}

/-- After the accesses, all of them completed, the microprogram asks for one more. -/
def Asks : Microprogram α → List Access → Request → Prop
  | done _, _, _ | illegal _ _, _, _ => False
  | read _ address _, [], request => request = .read address
  | read _ address next, access :: later, request =>
    ∃ value, access = .read address value ∧ (next value).Asks later request
  | write _ address value _, [], request => request = .write address value
  | write _ address value next, access :: later, request =>
    access = .write address value ∧ next.Asks later request
  | acknowledge _ _, [], request => request = .acknowledge
  | acknowledge _ next, access :: later, request =>
    ∃ value, access = .acknowledge value ∧ (next value).Asks later request
  | report _ next, seen, request => next.Asks seen request

/-- After the accesses, all of them completed, the microprogram ends with the value. -/
def Ends : Microprogram α → List Access → α → Prop
  | done v, seen, value => seen = [] ∧ v = value
  | illegal _ _, _, _ => False
  | read _ address next, seen, value =>
    ∃ byte later, seen = .read address byte :: later ∧ (next byte).Ends later value
  | write _ address byte next, seen, value =>
    ∃ later, seen = .write address byte :: later ∧ next.Ends later value
  | acknowledge _ next, seen, value =>
    ∃ byte later, seen = .acknowledge byte :: later ∧ (next byte).Ends later value
  | report _ next, seen, value => next.Ends seen value

variable {p : Microprogram α} {seen : List Access} {request : Request}

/-- A sequence asks for an access in its first part, or in its second when the first has ended. -/
lemma Asks.bind_inv {f : α → Microprogram γ} (h : (p.bind f).Asks seen request) :
    p.Asks seen request ∨ ∃ value first later, p.Ends first value ∧ (f value).Asks later request ∧
      seen = first ++ later := by
  induction p generalizing seen with
  | done value => exact .inr ⟨value, [], seen, ⟨rfl, rfl⟩, h, rfl⟩
  | illegal now cause => exact h.elim
  | read now address next ih =>
    cases seen with
    -- Where nothing has been seen yet, the first part is the one that asks.
    | nil => exact .inl h
    | cons access later =>
      obtain ⟨byte, rfl, h'⟩ := h
      obtain here | ⟨value, first, rest, ends, asks, rfl⟩ := ih byte h'
      · exact .inl ⟨byte, rfl, here⟩
      · exact .inr ⟨value, _ :: first, rest, ⟨byte, first, rfl, ends⟩, asks, rfl⟩
  | write now address byte next ih =>
    cases seen with
    | nil => exact .inl h
    | cons access later =>
      obtain ⟨rfl, h'⟩ := h
      obtain here | ⟨value, first, rest, ends, asks, rfl⟩ := ih h'
      · exact .inl ⟨rfl, here⟩
      · exact .inr ⟨value, _ :: first, rest, ⟨first, rfl, ends⟩, asks, rfl⟩
  | acknowledge now next ih =>
    cases seen with
    | nil => exact .inl h
    | cons access later =>
      obtain ⟨byte, rfl, h'⟩ := h
      obtain here | ⟨value, first, rest, ends, asks, rfl⟩ := ih byte h'
      · exact .inl ⟨byte, rfl, here⟩
      · exact .inr ⟨value, _ :: first, rest, ⟨byte, first, rfl, ends⟩, asks, rfl⟩
  | report r next ih => exact ih h

/-- A sequence that ended has ended its first part, then its second. -/
lemma Ends.bind_inv {f : α → Microprogram γ} {value : γ} (h : (p.bind f).Ends seen value) :
    ∃ x first later, p.Ends first x ∧ (f x).Ends later value ∧ seen = first ++ later := by
  induction p generalizing seen with
  | done x => exact ⟨x, [], seen, ⟨rfl, rfl⟩, h, rfl⟩
  | illegal now cause => exact h.elim
  | read now address next ih =>
    obtain ⟨byte, rest, rfl, h'⟩ := h
    obtain ⟨x, first, later, ends, ends', rfl⟩ := ih byte h'
    exact ⟨x, _ :: first, later, ⟨byte, first, rfl, ends⟩, ends', rfl⟩
  | write now address byte next ih =>
    obtain ⟨rest, rfl, h'⟩ := h
    obtain ⟨x, first, later, ends, ends', rfl⟩ := ih h'
    exact ⟨x, _ :: first, later, ⟨first, rfl, ends⟩, ends', rfl⟩
  | acknowledge now next ih =>
    obtain ⟨byte, rest, rfl, h'⟩ := h
    obtain ⟨x, first, later, ends, ends', rfl⟩ := ih byte h'
    exact ⟨x, _ :: first, later, ⟨byte, first, rfl, ends⟩, ends', rfl⟩
  | report r next ih => exact ih h

/-- What is put right where work stops short makes no difference to what is asked for. -/
lemma Asks.onAbort_inv {repair : Registers → Registers} (h : (p.onAbort repair).Asks seen request) :
    p.Asks seen request := by
  induction p generalizing seen with
  | done value => exact h
  | illegal now cause => exact h
  | read now address next ih =>
    cases seen with
    | nil => exact h
    | cons access later =>
      obtain ⟨byte, rfl, h'⟩ := h
      exact ⟨byte, rfl, ih byte h'⟩
  | write now address byte next ih =>
    cases seen with
    | nil => exact h
    | cons access later =>
      obtain ⟨rfl, h'⟩ := h
      exact ⟨rfl, ih h'⟩
  | acknowledge now next ih =>
    cases seen with
    | nil => exact h
    | cons access later =>
      obtain ⟨byte, rfl, h'⟩ := h
      exact ⟨byte, rfl, ih byte h'⟩
  | report r next ih => exact ih h

/-- Where an access is asked for a microprogram may stop short. -/
lemma Asks.stops {P : Registers → Option Request → Prop} (h : p.Asks seen request)
    (hp : p.Stops P) : ∃ now, P now (some request) := by
  induction p generalizing seen with
  | done value => exact h.elim
  | illegal now cause => exact h.elim
  | read now address next ih =>
    cases seen with
    | nil =>
      cases h
      exact ⟨now, hp.1⟩
    | cons access later =>
      obtain ⟨byte, rfl, h'⟩ := h
      exact ih byte h' (hp.2 byte)
  | write now address byte next ih =>
    cases seen with
    | nil =>
      cases h
      exact ⟨now, hp.1⟩
    | cons access later =>
      obtain ⟨rfl, h'⟩ := h
      exact ih h' hp.2
  | acknowledge now next ih =>
    cases seen with
    | nil =>
      cases h
      exact ⟨now, hp.1⟩
    | cons access later =>
      obtain ⟨byte, rfl, h'⟩ := h
      exact ih byte h' (hp.2 byte)
  | report r next ih => exact ih h hp

/-- What asks for nothing adds nothing at the end of a sequence. -/
lemma Asks.bind_silent_inv {f : α → Microprogram γ} (h : (p.bind f).Asks seen request)
    (silent : ∀ value, (f value).Stops fun _ _ => False) : p.Asks seen request := by
  obtain here | ⟨value, _, _, _, asks, _⟩ := h.bind_inv
  · exact here
  · obtain ⟨_, impossible⟩ := asks.stops (silent value)
    exact impossible.elim

/-- The accesses of a run before each of them are those after which it is asked for. -/
lemma asks_of_run [Bus β] {bus : β} {before later : List Access} {access : Access}
    (h : (p.run bus).trace.accesses = before ++ access :: later) : p.Asks before access.request := by
  induction p generalizing bus before with
  -- What is left of the log before the access shrinks as the run goes on.
  | done value => exact absurd h.symm (List.append_ne_nil_of_right_ne_nil _ (List.cons_ne_nil _ _))
  | illegal now cause =>
    exact absurd h.symm (List.append_ne_nil_of_right_ne_nil _ (List.cons_ne_nil _ _))
  | read now address next ih =>
    simp only [run] at h
    split at h
    case h_1 byte middle _ =>
      cases before with
      | nil =>
        obtain ⟨rfl, -⟩ := List.cons.inj h
        exact rfl
      | cons first before =>
        obtain ⟨rfl, h'⟩ := List.cons.inj h
        exact ⟨byte, rfl, ih byte h'⟩
    case h_2 =>
      obtain ⟨rfl, rfl⟩ := Access.singleton_inv h
      exact rfl
  | write now address byte next ih =>
    simp only [run] at h
    split at h
    case h_1 middle _ =>
      cases before with
      | nil =>
        obtain ⟨rfl, -⟩ := List.cons.inj h
        exact rfl
      | cons first before =>
        obtain ⟨rfl, h'⟩ := List.cons.inj h
        exact ⟨rfl, ih h'⟩
    case h_2 =>
      obtain ⟨rfl, rfl⟩ := Access.singleton_inv h
      exact rfl
  | acknowledge now next ih =>
    simp only [run] at h
    split at h
    case h_1 byte middle _ =>
      cases before with
      | nil =>
        obtain ⟨rfl, -⟩ := List.cons.inj h
        exact rfl
      | cons first before =>
        obtain ⟨rfl, h'⟩ := List.cons.inj h
        exact ⟨byte, rfl, ih byte h'⟩
    case h_2 =>
      obtain ⟨rfl, rfl⟩ := Access.singleton_inv h
      exact rfl
  | report r next ih => exact ih h

section

variable [Bus β]

/-- Two buses that complete the same accesses up to a write, and that are left the same by the write,
run the microprogram alike. -/
theorem run_eq_of_asks {bus bus' middle middle' after : β} {address : Word} {value : Byte}
    (asks : p.Asks seen (.write address value))
    (answers : Bus.perform bus (seen.map Access.request) = (seen, middle))
    (answers' : Bus.perform bus' (seen.map Access.request) = (seen, middle'))
    (stored : Bus.write middle address value = (.ok (), after))
    (stored' : Bus.write middle' address value = (.ok (), after)) : p.run bus = p.run bus' := by
  induction p generalizing seen bus bus' with
  | done value => exact asks.elim
  | illegal now cause => exact asks.elim
  | read now a next ih =>
    cases seen with
    | nil => cases asks
    | cons access later =>
      obtain ⟨byte, rfl, asks'⟩ := asks
      obtain ⟨first, met, rest⟩ := Bus.perform_cons_inv answers
      obtain ⟨first', met', rest'⟩ := Bus.perform_cons_inv answers'
      simp only [run, Request.meet_read_inv met, Request.meet_read_inv met', ih byte asks' rest rest']
  | write now a byte next ih =>
    cases seen with
    | nil =>
      -- This is the write after which the two buses are one.
      cases asks
      cases answers
      cases answers'
      simp only [run, stored, stored']
    | cons access later =>
      obtain ⟨rfl, asks'⟩ := asks
      obtain ⟨first, met, rest⟩ := Bus.perform_cons_inv answers
      obtain ⟨first', met', rest'⟩ := Bus.perform_cons_inv answers'
      simp only [run, Request.meet_write_inv met, Request.meet_write_inv met', ih asks' rest rest']
  | acknowledge now next ih =>
    cases seen with
    | nil => cases asks
    | cons access later =>
      obtain ⟨byte, rfl, asks'⟩ := asks
      obtain ⟨first, met, rest⟩ := Bus.perform_cons_inv answers
      obtain ⟨first', met', rest'⟩ := Bus.perform_cons_inv answers'
      simp only [run, Request.meet_acknowledge_inv met, Request.meet_acknowledge_inv met',
        ih byte asks' rest rest']
  | report r next ih =>
    simp only [run, ih asks answers answers']

end

/-- A microprogram that begins with reads asks for one of them, or has made them all. -/
lemma ReadsThen.asks_inv {P : Microprogram α → Prop} {first : Word} {n : Nat}
    (hp : p.ReadsThen P (first.upFrom n)) (h : p.Asks seen request) :
    (∃ bytes, seen = Access.reads first bytes) ∨
      ∃ bytes rest later, bytes.length = n ∧ P rest ∧ rest.Asks later request ∧
        seen = Access.reads first bytes ++ later := by
  induction n generalizing first p seen with
  | zero =>
    have hrest : P p := by cases p <;> exact hp
    exact .inr ⟨[], p, seen, rfl, hrest, h, rfl⟩
  | succ n ih =>
    cases p with
    | read now address next =>
      obtain ⟨rfl, hnext⟩ := hp
      cases seen with
      | nil => exact .inl ⟨[], rfl⟩
      | cons access later =>
        obtain ⟨byte, rfl, h'⟩ := h
        obtain ⟨bytes, rfl⟩ | ⟨bytes, rest, last, length, hrest, asks, rfl⟩ := ih (hnext byte) h'
        · exact .inl ⟨byte :: bytes, rfl⟩
        · exact .inr ⟨byte :: bytes, rest, last, congrArg (· + 1) length, hrest, asks, rfl⟩
    | _ => exact hp.elim

/-- When no reads are left, only a write is asked for, and fewer than all were made before it. -/
lemma DataPhase.asks_write_inv {writes : Nat} (phase : p.DataPhase 0 writes)
    (h : p.Asks seen request) :
    ∃ stored, seen = Access.stores stored ∧ stored.length < writes ∧
      ∃ address value, request = .write address value := by
  induction p generalizing writes seen with
  | done v => exact h.elim
  | illegal now cause => exact h.elim
  | read now address next ih => cases writes <;> exact phase.elim
  | write now address byte next ih =>
    cases writes with
    | zero => exact phase.elim
    | succ writes =>
      cases seen with
      | nil => exact ⟨[], rfl, Nat.succ_pos writes, address, byte, h⟩
      | cons access later =>
        obtain ⟨rfl, h'⟩ := h
        obtain ⟨stored, rfl, fewer, last⟩ := ih phase h'
        exact ⟨(address, byte) :: stored, rfl, Nat.succ_lt_succ fewer, last⟩
  | acknowledge now next ih => cases writes <;> exact phase.elim
  | report r next ih =>
    have phase' : next.DataPhase 0 writes := by cases writes <;> exact phase
    exact ih phase' h

/-- Data is read, so many bytes at most, before any is written, and once a byte was written only a
write is asked for. -/
lemma DataPhase.asks_inv {reads writes : Nat} (phase : p.DataPhase reads writes)
    (h : p.Asks seen request) :
    ∃ loaded stored, seen = Access.loads loaded ++ Access.stores stored ∧ loaded.length ≤ reads ∧
      (stored ≠ [] → stored.length < writes ∧ ∃ address value, request = .write address value) := by
  induction p generalizing reads seen with
  | done v => exact h.elim
  | illegal now cause => exact h.elim
  | read now address next ih =>
    cases reads with
    | zero => cases writes <;> exact phase.elim
    | succ reads =>
      cases seen with
      | nil => exact ⟨[], [], rfl, Nat.zero_le _, fun some => absurd rfl some⟩
      | cons access later =>
        obtain ⟨byte, rfl, h'⟩ := h
        obtain ⟨loaded, stored, rfl, few, last⟩ := ih byte (phase byte) h'
        exact ⟨(address, byte) :: loaded, stored, rfl, Nat.succ_le_succ few, last⟩
  | write now address byte next ih =>
    cases writes with
    | zero => cases reads <;> exact phase.elim
    | succ writes =>
      -- A write ends the reads.
      have phase' : (write now address byte next).DataPhase 0 (writes + 1) := by
        cases reads <;> exact phase
      obtain ⟨stored, rfl, last⟩ := phase'.asks_write_inv h
      exact ⟨[], stored, rfl, Nat.zero_le _, fun _ => last⟩
  | acknowledge now next ih => cases reads <;> cases writes <;> exact phase.elim
  | report r next ih =>
    have phase' : next.DataPhase reads writes := by cases reads <;> cases writes <;> exact phase
    exact ih phase' h

/-- A data phase of so many reads is one of more. -/
lemma DataPhase.more {reads writes : Nat} (phase : p.DataPhase reads writes) :
    p.DataPhase (reads + 1) writes := by
  induction p generalizing reads with
  | done v => exact trivial
  | illegal now cause => exact trivial
  | read now address next ih =>
    cases reads with
    | zero => cases writes <;> exact phase.elim
    | succ reads => exact fun value => ih value (phase value)
  | write now address byte next ih =>
    cases writes with
    | zero => cases reads <;> exact phase.elim
    | succ writes => cases reads <;> exact phase
  | acknowledge now next ih => cases reads <;> cases writes <;> exact phase.elim
  | report r next ih =>
    have phase' : next.DataPhase reads writes := by cases reads <;> cases writes <;> exact phase
    cases writes <;> exact ih phase'

/-- To supply bytes takes reads away and puts nothing in their place. -/
lemma DataPhase.withSupplied {reads writes : Nat} (phase : p.DataPhase reads writes) (first : Word)
    (bytes : List Byte) : (p.withSupplied first bytes).DataPhase reads writes := by
  induction p generalizing reads writes with
  | done v => cases reads <;> cases writes <;> exact trivial
  | illegal now cause => cases reads <;> cases writes <;> exact trivial
  | read now address next ih =>
    cases reads with
    | zero => cases writes <;> exact phase.elim
    | succ reads =>
      unfold Microprogram.withSupplied
      split
      -- A read that is answered from the supply is one fewer on the bus.
      case h_1 value _ => exact (ih value (phase value)).more
      case h_2 => exact fun value => ih value (phase value)
  | write now address byte next ih =>
    cases writes with
    | zero => cases reads <;> exact phase.elim
    | succ writes =>
      have phase' : next.DataPhase 0 writes := by cases reads <;> exact phase
      cases reads <;> exact ih phase'
  | acknowledge now next ih => cases reads <;> cases writes <;> exact phase.elim
  | report r next ih =>
    have phase' : next.DataPhase reads writes := by cases reads <;> cases writes <;> exact phase
    cases reads <;> cases writes <;> exact ih phase'

end Microprogram

end Z80
