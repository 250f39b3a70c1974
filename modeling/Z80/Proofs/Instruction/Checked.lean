import Mathlib.Data.Nat.PSub
import Z80.Instruction.Opcode
import Z80.Proofs.Flag.Table

/-!
# Decoding with checks

Decoding computes with the fields of an opcode: it subtracts from one, and makes a byte of a multiple
of another. Each page is decoded in advance into a table, and an opcode is looked up there. Here the
subtraction must not go below zero, the multiple must fit a byte, and an opcode must not be past the end
of its table. So it is, for every opcode (`Instruction.decode?_eq`,
`Instruction.decodeExtended?_eq`).
-/

namespace Z80

/-- A target takes at most two bytes of the encoding. -/
lemma Target.encodedBytes_le {ρ : Type} (t : Target ρ) : t.encodedBytes ≤ 2 := by
  cases t with
  | register _ | indirect _ => exact Nat.zero_le 2
  | absolute => exact Nat.le_refl 2

/-- A source takes at most two bytes of the encoding. -/
lemma Source.encodedBytes_le {ρ : Type} {width : Nat} (h : width ≤ 2) (s : Source ρ) :
    s.encodedBytes width ≤ 2 := by
  cases s with
  | register _ | indirect _ => exact Nat.zero_le 2
  | immediate => exact h
  | absolute => exact Nat.le_refl 2

namespace Instruction

open Opcode

/-- An opcode of the first block. The conditions of the relative jumps are numbered from the fifth
field on. -/
def ofBlock0? (opcode : Byte) : Option Instruction :=
  match last opcode, middle opcode with
  | 0, 0 | 0, 1 | 0, 2 | 0, 3 => some (ofBlock0 opcode)
  | 0, field => do
    let number ← field.psub 4
    return jumpRelative (some (condition number))
  | _, _ => some (ofBlock0 opcode)

/-- An opcode of the last block. A restart goes to a multiple of its field. -/
def ofBlock3? (opcode : Byte) : Option Instruction :=
  match last opcode with
  | 0 | 1 | 2 | 3 | 4 | 5 | 6 => some (ofBlock3 opcode)
  | _ => do
    let target ← Option.guard (· < 2 ^ 8) (8 * middle opcode)
    return rst (.ofNat target)

def ofOpcode? (opcode : Byte) : Option Instruction :=
  match block opcode with
  | 0 => ofBlock0? opcode
  | 1 | 2 => some (ofOpcode opcode)
  | _ => ofBlock3? opcode

/-- The table of the base page, if every opcode can be decoded. -/
def baseTable? : Option (List Instruction) :=
  (List.range 256).mapM fun n => ofOpcode? (.ofNat n)

/-- Looks up an opcode of the base page. -/
def decode? (opcode : Byte) : Option Instruction := do
  let table ← baseTable?
  table[opcode.toNat]?

/-- Looks up an opcode of the extended page. -/
def decodeExtended? (opcode : Byte) : Option Instruction :=
  (Byte.row ofExtendedOpcode)[opcode.toNat]?

/-- No check fails while an opcode of the first page is decoded. -/
lemma ofOpcode?_eq : ∀ opcode : Byte, ofOpcode? opcode = some (ofOpcode opcode) :=
  Byte.forall_of_lt (by decide +kernel)

/-- The table of the first page can be built, and has each opcode at its place. -/
lemma baseTable?_eq : baseTable? = some (Byte.row ofOpcode) := by
  have entries : (fun n => ofOpcode? (.ofNat n)) = fun n => pure (ofOpcode (.ofNat n)) :=
    funext fun n => ofOpcode?_eq (.ofNat n)
  rw [baseTable?, entries]
  exact List.mapM_pure

/-- A look into the table of the first page never fails, and finds what the opcode means. -/
@[simp] theorem decode?_eq (opcode : Byte) : decode? opcode = some (ofOpcode opcode) := by
  rw [decode?, baseTable?_eq]
  exact Byte.getElem?_row ofOpcode opcode

/-- A look into the table of the extended page never fails, and finds what the opcode means. -/
@[simp] theorem decodeExtended?_eq (opcode : Byte) :
    decodeExtended? opcode = some (ofExtendedOpcode opcode) :=
  Byte.getElem?_row ofExtendedOpcode opcode

/-- The length of an encoding, if it fits a byte. -/
def size? (i : Instruction) : Option Nat := Option.guard (· < 2 ^ 8) i.size

/-- No encoding has more than an opcode and two operands of two bytes. -/
lemma size_le (i : Instruction) : i.size ≤ 5 := by
  unfold size
  split
  case h_1 target source =>
    have ht := target.encodedBytes_le
    have hs : source.encodedBytes 1 ≤ 2 := source.encodedBytes_le (by decide)
    omega
  case h_2 target source =>
    have ht := target.encodedBytes_le
    have hs : source.encodedBytes 2 ≤ 2 := source.encodedBytes_le (Nat.le_refl 2)
    omega
  case h_3 source =>
    have hs : source.encodedBytes 1 ≤ 2 := source.encodedBytes_le (by decide)
    omega
  all_goals exact Nat.le_of_ble_eq_true rfl

/-- The size of every instruction fits in a byte. -/
@[simp] lemma size?_eq (i : Instruction) : i.size? = some i.size :=
  Option.guard_pos (decide_eq_true (Nat.lt_of_le_of_lt i.size_le (by decide)))

end Instruction

end Z80
