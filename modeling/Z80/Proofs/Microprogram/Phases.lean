import Mathlib.Tactic.Lemma
import Z80.Microprogram.Supplied

/-!
# Phases of a microprogram

An instruction first reads the bytes of its own encoding, then its data, and then writes. This module
says what that means of a microprogram (`Microprogram.ReadsThen`, `Microprogram.DataPhase`), and
takes a microprogram past its first reads (`Microprogram.answered`).

Main statement: when the bytes of the encoding are supplied, the microprogram goes on as if it had
read them (`Microprogram.withSupplied_answered`).
-/

namespace Z80

/-- As many addresses, in order, from the first on. -/
def Word.upFrom (first : Word) : Nat → List Word
  | 0 => []
  | n + 1 => first :: upFrom (first + 1) n

/-- There are as many addresses as are counted. -/
lemma Word.length_upFrom (first : Word) (n : Nat) : (first.upFrom n).length = n := by
  induction n generalizing first with
  | zero => rfl
  | succ n ih => exact congrArg (· + 1) (ih (first + 1))

/-- Reads of the bytes at the addresses from the first on. -/
def Access.reads (first : Word) : List Byte → List Access
  | [] => []
  | value :: rest => .read first value :: reads (first + 1) rest

/-- There is one read for each byte. -/
lemma Access.length_reads (first : Word) (bytes : List Byte) :
    (Access.reads first bytes).length = bytes.length := by
  induction bytes generalizing first with
  | nil => rfl
  | cons value rest ih => exact congrArg (· + 1) (ih (first + 1))

namespace Microprogram

variable {α β γ : Type}

/-- First come reads of the addresses, and whatever they give, the rest satisfies the condition. -/
def ReadsThen (P : Microprogram α → Prop) : List Word → Microprogram α → Prop
  | [], p => P p
  | address :: rest, read _ a next => a = address ∧ ∀ value, (next value).ReadsThen P rest
  | _ :: _, _ => False

/-- At most so many reads come before at most so many writes, and no acknowledge cycle. -/
def DataPhase : Nat → Nat → Microprogram α → Prop
  | _, _, done _ => True
  | _, _, illegal _ _ => True
  | reads + 1, writes, read _ _ next => ∀ value, (next value).DataPhase reads writes
  | _, writes + 1, write _ _ _ next => next.DataPhase 0 writes
  | reads, writes, report _ next => next.DataPhase reads writes
  | _, _, _ => False

/-- The rest of a microprogram when its first reads have given the bytes. -/
def answered : List Byte → Microprogram α → Microprogram α
  | value :: rest, read _ _ next => (next value).answered rest
  | _, p => p

/-- When the reads at the beginning have been answered, what comes after them is left. -/
lemma ReadsThen.answered {P : Microprogram α → Prop} {addresses : List Word} {bytes : List Byte}
    {p : Microprogram α} (hp : p.ReadsThen P addresses) (hl : addresses.length = bytes.length) :
    P (p.answered bytes) := by
  induction addresses generalizing bytes p with
  | nil =>
    obtain rfl : bytes = [] := List.length_eq_zero_iff.mp hl.symm
    cases p <;> exact hp
  | cons address rest ih =>
    cases bytes with
    | nil => cases hl
    | cons value values =>
      cases p with
      | read now a next =>
        show P ((next value).answered values)
        exact ih (hp.2 value) (Nat.succ.inj hl)
      | _ => exact hp.elim

/-- The supplied bytes are found at the address they are for. -/
lemma suppliedAt_append (first : Word) (before : List Byte) (value : Byte) (rest : List Byte)
    (h : before.length < 65536) :
    suppliedAt first (before ++ value :: rest) (first + UInt16.ofNat before.length) =
      some value := by
  have offset : first + UInt16.ofNat before.length - first = UInt16.ofNat before.length := by
    rw [UInt16.add_comm, UInt16.add_sub_cancel]
  rw [suppliedAt, offset, UInt16.toNat_ofNat_of_lt' h, List.getElem?_append_right (Nat.le_refl _),
    Nat.sub_self, List.getElem?_cons_zero]

/-- Bytes that are supplied answer the reads at the beginning, wherever in the supply these
start. -/
lemma withSupplied_answered_append {P : Microprogram α → Prop} {first : Word}
    {before bytes : List Byte} {p : Microprogram α}
    (hp : p.ReadsThen P ((first + UInt16.ofNat before.length).upFrom bytes.length))
    (hl : before.length + bytes.length ≤ 65536) :
    p.withSupplied first (before ++ bytes) =
      (p.answered bytes).withSupplied first (before ++ bytes) := by
  induction bytes generalizing before p with
  | nil => cases p <;> rfl
  | cons value rest ih =>
    cases p with
    | read now a next =>
      obtain ⟨rfl, hnext⟩ := hp
      rw [List.length_cons] at hl
      have here := suppliedAt_append first before value rest (by omega)
      have step : (read now (first + UInt16.ofNat before.length) next).withSupplied first
          (before ++ value :: rest) = (next value).withSupplied first (before ++ value :: rest) := by
        simp only [withSupplied, here]
      -- The byte that was read joins those before it.
      have moved : before ++ value :: rest = (before ++ [value]) ++ rest := by
        rw [List.append_assoc, List.singleton_append]
      rw [step, moved]
      apply ih
      · rw [List.length_append, List.length_singleton, UInt16.ofNat_add, ← UInt16.add_assoc]
        exact hnext value
      · rw [List.length_append, List.length_singleton]
        omega
    | _ => exact hp.elim

/-- A microprogram whose first reads are of the addresses that bytes are supplied for goes on as if
it had read them. -/
lemma withSupplied_answered {P : Microprogram α → Prop} {first : Word} {bytes : List Byte}
    {p : Microprogram α} (hp : p.ReadsThen P (first.upFrom bytes.length))
    (hl : bytes.length ≤ 65536) :
    p.withSupplied first bytes = (p.answered bytes).withSupplied first bytes := by
  have start : first + UInt16.ofNat ([] : List Byte).length = first := UInt16.add_zero first
  rw [← start] at hp
  apply withSupplied_answered_append hp
  rwa [List.length_nil, Nat.zero_add]

end Microprogram

end Z80
