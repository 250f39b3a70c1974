import Mathlib.Tactic.Lemma
import Z80.Bus.Ram
import Z80.Bus.Scripted

/-!
# Accesses to memory

What is known of memory on a bus, and of memory behind a script, when an access succeeds: a read gives
the byte at its address and changes nothing, a write was not for the read-only region and changes the
byte at its address only, and an acknowledge cycle takes the first byte of the queue. And which
accesses to memory fail: a write in the read-only region, and an acknowledge cycle without an answer.
-/

namespace Z80

/-- A byte that was written is not in the read-only region, and memory holds it. -/
lemma Ram.write_ok_inv {m m' : Ram} {address : Word} {value : Byte}
    (h : Bus.write m address value = (.ok (), m')) :
    ¬ address < m.romSize ∧ m' = { m with memory := m.memory.set address value } := by
  change Ram.write m address value = _ at h
  unfold Ram.write at h
  split at h
  case isTrue => cases h
  case isFalse hrom =>
    cases h
    exact ⟨hrom, rfl⟩

/-- A byte outside the read-only region is written. -/
lemma Ram.write_ok {m : Ram} {address : Word} {value : Byte} (h : ¬ address < m.romSize) :
    Bus.write m address value = (.ok (), { m with memory := m.memory.set address value }) := by
  change Ram.write m address value = _
  unfold Ram.write
  rw [if_neg h]

/-- Where nothing is read-only, every address can be written. -/
lemma Ram.write_unguarded {m : Ram} (unguarded : m.romSize = 0) (address : Word) (value : Byte)
    (memory : Memory) :
    Bus.write ({ m with memory } : Ram) address value =
      (.ok (), { m with memory := memory.set address value }) := by
  apply Ram.write_ok
  show ¬ address < m.romSize
  rw [unguarded]
  exact UInt16.not_lt_zero

/-- A byte in the read-only region is refused, and memory stays as it is. -/
lemma Ram.write_readOnly {m : Ram} {address : Word} {value : Byte} (h : address < m.romSize) :
    Bus.write m address value = (.error (.readOnly address), m) := by
  change Ram.write m address value = _
  unfold Ram.write
  rw [if_pos h]

/-- An acknowledge cycle is answered with the byte that was set for it. -/
lemma Ram.acknowledge_of_some {m : Ram} {data : Byte} (h : m.acknowledge = some data) :
    Bus.acknowledge m = (.ok data, m) := by
  change m.answerAcknowledge = _
  rw [answerAcknowledge, h]

/-- An acknowledge cycle fails where no byte was set for it. -/
lemma Ram.acknowledge_of_none {m : Ram} (h : m.acknowledge = none) :
    Bus.acknowledge m = (.error .noAcknowledge, m) := by
  change m.answerAcknowledge = _
  rw [answerAcknowledge, h]

/-- A byte that is set shows at its address and nowhere else. -/
lemma Ram.peek_set (m : Ram) (address other : Word) (value : Byte) :
    ({ m with memory := m.memory.set address value } : Ram).peek other =
      if other = address then value else m.peek other :=
  m.memory.get_set address other value

namespace Scripted

variable {β : Type}

/-- An access that succeeds behind a script was let through. -/
lemma guarded_ok_inv {α : Type} {s s' : Scripted β} {kind : AccessKind} {address : Word}
    {access : Scripted β → Except BusError α × Scripted β} {value : α}
    (h : s.guarded kind address access = (.ok value, s')) :
    ∃ rules, access { s with rules } = (.ok value, s') := by
  unfold guarded at h
  split at h
  case h_1 => cases h
  case h_2 rules _ => exact ⟨rules, h⟩

/-- A read that the script let pass gave what memory holds, and took no byte of the device. -/
lemma read_ok_inv {s s' : Scripted Ram} {address : Word} {value : Byte}
    (h : Bus.read s address = (.ok value, s')) :
    value = s.bus.peek address ∧ s'.bus = s.bus ∧ s'.queue = s.queue := by
  change s.read address = _ at h
  unfold read at h
  obtain ⟨rules, hr⟩ := guarded_ok_inv h
  cases hr
  exact ⟨rfl, rfl, rfl⟩

/-- A write that the script let pass went to memory, and took no byte of the device. -/
lemma write_ok_inv {s s' : Scripted Ram} {address : Word} {value : Byte}
    (h : Bus.write s address value = (.ok (), s')) :
    ¬ address < s.bus.romSize ∧
      s'.bus = { s.bus with memory := s.bus.memory.set address value } ∧ s'.queue = s.queue := by
  change s.write address value = _ at h
  unfold write at h
  obtain ⟨rules, hr⟩ := guarded_ok_inv h
  cases hw : Bus.write s.bus address value with
  | mk answer m' =>
    simp only [hw] at hr
    cases hr
    obtain ⟨hrom, rfl⟩ := Ram.write_ok_inv hw
    exact ⟨hrom, rfl, rfl⟩

/-- An acknowledge cycle that the script let pass took the next byte of the device, and left memory
alone. -/
lemma acknowledge_ok_inv {s s' : Scripted Ram} {queue : List Byte} {value : Byte}
    (hq : s.queue = some queue) (h : Bus.acknowledge s = (.ok value, s')) :
    ∃ rest, queue = value :: rest ∧ s'.queue = some rest ∧ s'.bus = s.bus := by
  change s.acknowledge = _ at h
  unfold acknowledge at h
  obtain ⟨rules, hr⟩ := guarded_ok_inv h
  simp only [hq] at hr
  cases queue with
  | nil => cases hr
  | cons first rest =>
    cases hr
    exact ⟨rest, rfl, rfl, rfl⟩

/-- An acknowledge cycle changes nothing in memory, wherever its answer comes from. -/
lemma bus_of_acknowledge {s s' : Scripted Ram} {value : Byte}
    (h : Bus.acknowledge s = (.ok value, s')) : s'.bus = s.bus := by
  change s.acknowledge = _ at h
  unfold acknowledge at h
  obtain ⟨rules, hr⟩ := guarded_ok_inv h
  -- Where there is a queue, even an empty one, the bus behind is not asked.
  cases queue : s.queue with
  | some bytes =>
    cases bytes with
    | nil =>
      simp only [queue] at hr
      cases hr
    | cons first rest =>
      simp only [queue] at hr
      cases hr
      rfl
  | none =>
    simp only [queue] at hr
    cases answer : s.bus.acknowledge with
    | some data =>
      rw [Ram.acknowledge_of_some answer] at hr
      cases hr
      rfl
    | none =>
      rw [Ram.acknowledge_of_none answer] at hr
      cases hr

end Scripted

end Z80
