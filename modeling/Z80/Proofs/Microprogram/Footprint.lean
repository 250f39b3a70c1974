import Z80.Proofs.Microprogram.Completion
import Z80.Proofs.Microprogram.Phases

/-!
# Footprints

What the phases of a microprogram leave in the log of accesses when it completes: the reads it begins
with (`Microprogram.ReadsThen.seen`), and after them the reads and the writes of its data
(`Microprogram.DataPhase.seen`).
-/

namespace Z80

/-- Reads of data, each with its address and the byte it gave. -/
def Access.loads (moved : List (Word × Byte)) : List Access :=
  moved.map fun (address, value) => .read address value

/-- Writes of data, each with its address and the byte it stored. -/
def Access.stores (moved : List (Word × Byte)) : List Access :=
  moved.map fun (address, value) => .write address value

namespace Microprogram

variable {α β : Type} [Bus β] {bus after : β} {value : α} {t : Trace}

/-- The reads a microprogram begins with are the first of its log, and the rest of it goes on from
them. -/
lemma ReadsThen.seen {P : Microprogram α → Prop} {first : Word} {n : Nat} {p : Microprogram α}
    (hp : p.ReadsThen P (first.upFrom n)) (h : p.Completes bus value after t) :
    ∃ (bytes : List Byte) (rest : Microprogram α) (middle : β) (t' : Trace),
      bytes.length = n ∧ P rest ∧ rest.Completes middle value after t' ∧
      t.accesses = Access.reads first bytes ++ t'.accesses := by
  induction n generalizing first p bus t with
  | zero =>
    have hrest : P p := by cases p <;> exact hp
    exact ⟨[], p, bus, t, rfl, hrest, h, rfl⟩
  | succ n ih =>
    cases p with
    | read now address next =>
      obtain ⟨rfl, hnext⟩ := hp
      obtain ⟨byte, middle, t₁, -, hn, rfl⟩ := h.read_inv
      obtain ⟨bytes, rest, middle', t', length, hrest, hcompletes, seen⟩ := ih (hnext byte) hn
      refine ⟨byte :: bytes, rest, middle', t', congrArg (· + 1) length, hrest, hcompletes, ?_⟩
      rw [Trace.accesses_access, seen]
      rfl
    | _ => exact hp.elim

/-- Data is read, so many bytes at most, before any is written. -/
lemma DataPhase.seen {reads writes : Nat} {p : Microprogram α} (phase : p.DataPhase reads writes)
    (h : p.Completes bus value after t) :
    ∃ loaded stored, loaded.length ≤ reads ∧ stored.length ≤ writes ∧
      t.accesses = Access.loads loaded ++ Access.stores stored := by
  induction p generalizing reads writes bus t with
  | done v =>
    obtain ⟨-, -, rfl⟩ := h.done_inv
    exact ⟨[], [], Nat.zero_le _, Nat.zero_le _, rfl⟩
  | illegal now cause => cases h
  | read now address next ih =>
    obtain ⟨byte, middle, t', -, hn, rfl⟩ := h.read_inv
    cases reads with
    | zero => cases writes <;> exact phase.elim
    | succ reads =>
      obtain ⟨loaded, stored, few, fewer, seen⟩ := ih byte (phase byte) hn
      refine ⟨(address, byte) :: loaded, stored, Nat.succ_le_succ few, fewer, ?_⟩
      rw [Trace.accesses_access, seen]
      rfl
  | write now address byte next ih =>
    obtain ⟨middle, t', -, hn, rfl⟩ := h.write_inv
    cases writes with
    | zero => cases reads <;> exact phase.elim
    | succ writes =>
      -- A write ends the reads.
      have phase' : next.DataPhase 0 writes := by cases reads <;> exact phase
      obtain ⟨loaded, stored, none, fewer, seen⟩ := ih phase' hn
      obtain rfl : loaded = [] := List.length_eq_zero_iff.mp (Nat.le_zero.mp none)
      refine ⟨[], (address, byte) :: stored, Nat.zero_le _, Nat.succ_le_succ fewer, ?_⟩
      rw [Trace.accesses_access, seen]
      rfl
  | acknowledge now next ih => cases reads <;> cases writes <;> exact phase.elim
  | report r next ih =>
    obtain ⟨t', hn, rfl⟩ := h.report_inv
    have phase' : next.DataPhase reads writes := by cases reads <;> cases writes <;> exact phase
    rw [Trace.accesses_report]
    exact ih phase' hn

end Microprogram

end Z80
