import Z80.Proofs.Bus.Success
import Z80.Proofs.Memory.Load
import Z80.Proofs.Microprogram.Completion
import Z80.Proofs.Microprogram.Phases

/-!
# Bytes that are supplied and bytes in memory

A microprogram may be run on a bus with its first reads answered from bytes that were supplied, or on
memory that holds these bytes. The addresses they take up in memory are a window. Memory that differs
inside the window only (`SameOutside`) makes no difference to a microprogram that keeps out of it
(`Microprogram.Completes.placed`), and on memory that holds the bytes the first reads give them
(`Microprogram.run_answered`).
-/

namespace Z80

/-- The address is one of so many from the first on, over the end of memory to its beginning. -/
def Word.Within (first : Word) (n : Nat) (address : Word) : Prop := (address - first).toNat < n

instance (first : Word) (n : Nat) (address : Word) : Decidable (first.Within n address) :=
  inferInstanceAs (Decidable (_ < _))

/-- The address of an access, if it has one. -/
def Access.address? : Access → Option Word
  | .read address _ | .write address _ => some address
  | .acknowledge _ => none
  | .failed (.read address) _ | .failed (.write address _) _ => some address
  | .failed .acknowledge _ => none

/-- No access is to an address of the window. -/
def KeepsOut (first : Word) (n : Nat) (seen : List Access) : Prop :=
  ∀ address ∈ seen.filterMap Access.address?, ¬ first.Within n address

instance (first : Word) (n : Nat) (seen : List Access) : Decidable (KeepsOut first n seen) :=
  List.decidableBAll _ (seen.filterMap Access.address?)

/-- A trace of accesses alone holds just these. -/
lemma Trace.accesses_map (seen : List Access) :
    Trace.accesses (seen.map .access) = seen := by
  induction seen with
  | nil => rfl
  | cons access rest ih => exact congrArg (access :: ·) ih

/-- The bytes stand in memory from the first address on. -/
def Ram.Holds (m : Ram) (first : Word) : List Byte → Prop
  | [] => True
  | value :: rest => m.peek first = value ∧ m.Holds (first + 1) rest

/-- Memory holds bytes when it holds each of them at its address. -/
lemma Ram.holds_of_peek {m : Ram} {first : Word} {bytes : List Byte}
    (h : ∀ k, k < bytes.length → bytes[k]? = some (m.peek (first + UInt16.ofNat k))) :
    m.Holds first bytes := by
  induction bytes generalizing first with
  | nil => exact trivial
  | cons value rest ih =>
    refine ⟨?_, ?_⟩
    · have head := h 0 (Nat.succ_pos _)
      have start : first + UInt16.ofNat 0 = first := UInt16.add_zero first
      rw [List.getElem?_cons_zero, start] at head
      exact (Option.some.inj head).symm
    · apply ih
      intro k hk
      have tail := h (k + 1) (Nat.succ_lt_succ hk)
      rw [List.getElem?_cons_succ, Nat.add_comm k 1, UInt16.ofNat_add, ← UInt16.add_assoc] at tail
      exact tail

/-- Bytes that were stored are held. -/
lemma Ram.holds_load (m : Ram) (first : Word) {bytes : List Byte} (h : bytes.length ≤ 65536) :
    (m.load first bytes).Holds first bytes := by
  apply holds_of_peek
  intro k hk
  have offset : (first + UInt16.ofNat k - first).toNat = k := by
    rw [UInt16.add_comm, UInt16.add_sub_cancel, UInt16.toNat_ofNat_of_lt' (Nat.lt_of_lt_of_le hk h)]
  have stored : (m.load first bytes).peek (first + UInt16.ofNat k) = bytes[k] := by
    show (m.memory.load first bytes).get _ = _
    rw [Memory.get_load m.memory first _ h, offset, List.getElem?_eq_getElem hk, Option.getD_some]
  rw [stored, List.getElem?_eq_getElem hk]

/-- Memory behind a script and memory by itself, with the same read-only region, and the same bytes
outside a window. -/
structure SameOutside (first : Word) (n : Nat) (s : Scripted Ram) (m : Ram) : Prop where
  romSize : s.bus.romSize = m.romSize
  peek : ∀ address, ¬ first.Within n address → s.bus.peek address = m.peek address

/-- Storing bytes in the window makes no difference outside. -/
lemma sameOutside_load (s : Scripted Ram) (first : Word) {bytes : List Byte}
    (h : bytes.length ≤ 65536) : SameOutside first bytes.length s (s.bus.load first bytes) where
  romSize := rfl
  peek := by
    intro address outside
    show _ = (s.bus.memory.load first bytes).get address
    rw [Memory.get_load s.bus.memory first address h,
      List.getElem?_eq_none (Nat.le_of_not_lt outside)]
    rfl

/-- A write that succeeds behind the script succeeds on the memory by itself. -/
lemma SameOutside.write {first : Word} {n : Nat} {s s' : Scripted Ram} {m : Ram}
    (same : SameOutside first n s m) {address : Word} {value : Byte}
    (h : Bus.write s address value = (.ok (), s')) :
    Bus.write m address value = (.ok (), { m with memory := m.memory.set address value }) ∧
      SameOutside first n s' { m with memory := m.memory.set address value } ∧
      s'.queue = s.queue := by
  obtain ⟨hrom, hbus, hqueue⟩ := Scripted.write_ok_inv h
  refine ⟨Ram.write_ok (same.romSize ▸ hrom), ⟨?_, ?_⟩, hqueue⟩
  · rw [hbus]
    exact same.romSize
  · intro other outside
    rw [hbus, Ram.peek_set, Ram.peek_set, same.peek other outside]

namespace Microprogram

variable {α : Type}

/-- Bytes that are supplied for the addresses after the first of a window are for addresses of the
window. -/
lemma within_of_suppliedAt {first address : Word} {bytes : List Byte}
    (h : suppliedAt (first + 1) bytes address ≠ none) :
    first.Within (bytes.length + 1) address := by
  have supplied : (address - (first + 1)).toNat < bytes.length := by
    apply Nat.lt_of_not_le
    intro past
    exact h (List.getElem?_eq_none past)
  unfold Word.Within
  by_cases same : address = first
  · rw [same, UInt16.sub_self]
    exact Nat.succ_pos _
  · rw [Word.toNat_offset_succ same]
    exact Nat.succ_lt_succ supplied

/-- On memory that holds the bytes, a microprogram that begins with reads of them goes on with
them. -/
lemma run_answered {P : Microprogram α → Prop} {first : Word} {bytes : List Byte}
    {p : Microprogram α} {m : Ram} (hp : p.ReadsThen P (first.upFrom bytes.length))
    (holds : m.Holds first bytes) :
    p.run m =
      { (p.answered bytes).run m with
        trace := (Access.reads first bytes).map .access ++ ((p.answered bytes).run m).trace } := by
  induction bytes generalizing first p with
  | nil => cases p <;> rfl
  | cons value rest ih =>
    cases p with
    | read now address next =>
      obtain ⟨rfl, hnext⟩ := hp
      obtain ⟨rfl, hrest⟩ := holds
      have answer : Bus.read m address = (.ok (m.peek address), m) := rfl
      simp only [run, answer]
      rw [ih (hnext _) hrest]
      rfl
    | _ => exact hp.elim

/-- What completes with supplied bytes and keeps out of the window they would take up in memory
completes alike on memory that is the same outside the window. -/
lemma Completes.placed {p : Microprogram α} {reads writes : Nat} {first : Word}
    {bytes : List Byte} {s s' : Scripted Ram} {m : Ram} {value : α} {t : Trace}
    (phase : p.DataPhase reads writes)
    (h : (p.withSupplied (first + 1) bytes).Completes s value s' t)
    (same : SameOutside first (bytes.length + 1) s m)
    (out : KeepsOut first (bytes.length + 1) (p.run m).trace.accesses) :
    ∃ m', p.Completes m value m' t ∧ SameOutside first (bytes.length + 1) s' m' ∧
      s'.queue = s.queue := by
  induction p generalizing reads writes s m t with
  | done v =>
    obtain ⟨rfl, rfl, rfl⟩ := h.done_inv
    exact ⟨m, rfl, same, rfl⟩
  | illegal now cause => cases h
  | read now address next ih =>
    have answer : Bus.read m address = (.ok (m.peek address), m) := rfl
    simp only [run, answer] at out
    obtain ⟨outside, later⟩ := List.forall_mem_cons.mp out
    cases reads with
    | zero => cases writes <;> exact phase.elim
    | succ reads =>
      unfold withSupplied at h
      split at h
      case h_1 supplied hs =>
        -- An address that is answered from the supply is in the window, and this read keeps out of it.
        have found : suppliedAt (first + 1) bytes address ≠ none := by
          rw [hs]
          exact Option.some_ne_none _
        exact absurd (within_of_suppliedAt found) outside
      case h_2 =>
        obtain ⟨byte, middle, t', hread, hnext, rfl⟩ := h.read_inv
        obtain ⟨rfl, hbus, hqueue⟩ := Scripted.read_ok_inv hread
        have same' : SameOutside first (bytes.length + 1) middle m :=
          ⟨hbus ▸ same.romSize, hbus ▸ same.peek⟩
        rw [same.peek address outside] at hnext ⊢
        obtain ⟨m', hm, hafter, hkept⟩ := ih _ (phase _) hnext same' later
        exact ⟨m', .read answer hm, hafter, hkept.trans hqueue⟩
  | write now address byte next ih =>
    obtain ⟨middle, t', hwrite, hnext, rfl⟩ := h.write_inv
    obtain ⟨answer, same', hqueue⟩ := same.write hwrite
    simp only [run, answer] at out
    obtain ⟨-, later⟩ := List.forall_mem_cons.mp out
    cases writes with
    | zero => cases reads <;> exact phase.elim
    | succ writes =>
      have phase' : next.DataPhase 0 writes := by cases reads <;> exact phase
      obtain ⟨m', hm, hafter, hkept⟩ := ih phase' hnext same' later
      exact ⟨m', .write answer hm, hafter, hkept.trans hqueue⟩
  | acknowledge now next ih => cases reads <;> cases writes <;> exact phase.elim
  | report r next ih =>
    obtain ⟨t', hnext, rfl⟩ := h.report_inv
    have phase' : next.DataPhase reads writes := by cases reads <;> cases writes <;> exact phase
    obtain ⟨m', hm, hafter, hkept⟩ := ih phase' hnext same out
    exact ⟨m', .report hm, hafter, hkept⟩

end Microprogram

end Z80
