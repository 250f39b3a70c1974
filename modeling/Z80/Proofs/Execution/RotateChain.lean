import Mathlib.Data.Bool.Basic
import Mathlib.Data.List.Induction
import Mathlib.Data.Nat.Digits.Defs
import Mathlib.Tactic.LinearCombination
import Z80.Proofs.Execution.CarryChain
import Z80.Proofs.Flag.Outcome

/-!
# Numbers of many bytes, shifted

Rotations through the carry shift numbers of any length by one bit, one byte after the other. `RLA`,
run from the lowest byte to the highest, doubles the number and moves the carry in at the bottom
(`Registers.Doubles`); `RRA`, run from the highest byte to the lowest, halves it and moves the carry in
at the top (`Registers.Halves`). In either direction the bit that leaves one byte enters the next
(`Rotation.rla_exact`, `Rotation.rra_exact`). That one way undoes the other needs no third induction:
the two equations leave room for no other bytes (`Registers.rotations_shift`).
-/

namespace Z80

/-- The number of which these bytes are the digits, the lowest first. -/
def Byte.number (bytes : List Byte) : Nat := Nat.ofDigits 256 (bytes.map UInt8.toNat)

namespace Byte

/-- A number is its lowest byte and, 256 times, the number of the others. -/
lemma number_cons (byte : Byte) (bytes : List Byte) :
    number (byte :: bytes) = byte.toNat + 256 * number bytes :=
  Nat.ofDigits_cons

/-- The last byte of a number counts the most. -/
lemma number_concat (bytes : List Byte) (byte : Byte) :
    number (bytes ++ [byte]) = number bytes + 256 ^ bytes.length * byte.toNat := by
  rw [number, List.map_append, Nat.ofDigits_append, List.length_map, List.map_singleton,
    Nat.ofDigits_singleton]
  rfl

/-- Among the bytes of one length a number has its own. -/
lemma eq_of_number_eq {bytes others : List Byte} (length : bytes.length = others.length)
    (same : number bytes = number others) : bytes = others := by
  have below : ∀ list : List Byte, ∀ value ∈ list.map UInt8.toNat, value < 256 := by
    intro list value found
    obtain ⟨byte, -, rfl⟩ := List.mem_map.mp found
    exact byte.toNat_lt
  have values : bytes.map UInt8.toNat = others.map UInt8.toNat := by
    apply Nat.ofDigits_inj_of_len_eq (by decide : 1 < 256) _ (below bytes) (below others) same
    rw [List.length_map, List.length_map, length]
  exact (List.map_inj_right fun _ _ => UInt8.toNat.inj).mp values

end Byte

namespace Rotation

/-- The bit that leaves on the left is worth as much as the byte may hold, and the one that enters is
worth one. -/
lemma rla_exact (a : Byte) (c : Bool) :
    (rla.apply a c).1.toNat + 256 * (rla.apply a c).2.toNat = 2 * a.toNat + c.toNat := by
  revert a
  cases c <;> exact Byte.forall_of_lt (by decide +kernel)

/-- To halve a byte with the carry on top loses nothing, as what falls out is the new carry. -/
lemma rra_exact (a : Byte) (c : Bool) :
    2 * (rra.apply a c).1.toNat + (rra.apply a c).2.toNat = a.toNat + 256 * c.toNat := by
  revert a
  cases c <;> exact Byte.forall_of_lt (by decide +kernel)

end Rotation

namespace Registers

/-- The rotation is run on bytes one after the other, each loaded into the accumulator, and the
registers go from one to the next: the registers after each. -/
def rotateEach (rotation : Rotation) (r : Registers) : List Byte → Microprogram (List Registers)
  | [] => return []
  | byte :: rest => do
    let done ← (Instruction.rotate rotation).execute (r.withA byte)
    let later ← rotateEach rotation done.registers rest
    return done.registers :: later

/-- The carry in the end, which is the one in the beginning if nothing was run. -/
def carryAfter (r : Registers) (after : List Registers) : Bool := (after.getLastD r).carry

/-- Of the flags, sign, zero and parity are those of `r`, half carry and subtraction are clear, and the
two that copy bits copy those of the accumulator. -/
def RotatedFrom (r s : Registers) : Prop :=
  ∃ carry, Flag.states s.flags =
    { Flag.states r.flags with
      bit5 := s.a.bit 5
      halfCarry := false
      bit3 := s.a.bit 3
      subtract := false
      carry }

/-- `RLA`, run from the lowest byte to the highest, completes without the bus and makes of the number
twice the number and the carry. -/
structure Doubles (r : Registers) (bytes : List Byte) (after : List Registers) : Prop where
  runs : r.rotateEach .rla bytes = .done after
  length : after.length = bytes.length
  value : Byte.number (after.map a) + (r.carryAfter after).toNat * 256 ^ bytes.length =
    2 * Byte.number bytes + r.carry.toNat
  flags : ∀ s ∈ after, r.RotatedFrom s

/-- `RRA`, run from the highest byte to the lowest, completes without the bus and makes of the number,
with the carry above it, the half. -/
structure Halves (r : Registers) (bytes : List Byte) (after : List Registers) : Prop where
  runs : r.rotateEach .rra bytes.reverse = .done after
  length : after.length = bytes.length
  value : 2 * Byte.number (after.map a).reverse + (r.carryAfter after).toNat =
    Byte.number bytes + r.carry.toNat * 256 ^ bytes.length
  flags : ∀ s ∈ after, r.RotatedFrom s

/-- One byte, loaded and rotated. -/
lemma execute_rotate (rotation : Rotation) (r : Registers) (byte : Byte) :
    ∃ done, (Instruction.rotate rotation).execute (r.withA byte) = .done done ∧
      done.registers.a = (rotation.apply byte r.carry).1 ∧
      done.registers.carry = (rotation.apply byte r.carry).2 ∧
      r.RotatedFrom done.registers := by
  have loaded : (r.withA byte).a = byte := r.readByte_writeByte .a byte
  have kept : (r.withA byte).flags = r.flags :=
    r.readByte_writeByte_ne byte (by decide : ByteRegister.f ≠ .a)
  have states := FlagRule.states_rotation (rotation.apply byte r.carry).1 r.flags
    (rotation.apply byte r.carry).2
  have rotated : ((r.withA byte).rotate rotation).a = (rotation.apply byte r.carry).1 ∧
      ((r.withA byte).rotate rotation).flags =
        ((FlagRule.rotation (rotation.apply byte r.carry).1).overlay
          (.flag Flag.carry (rotation.apply byte r.carry).2)).apply r.flags := by
    rw [rotate, carry, flagIsSet, loaded, kept, a_settle, flags_settle, kept]
    exact ⟨rfl, rfl⟩
  obtain ⟨result, flags⟩ := rotated
  rw [← flags, ← result] at states
  exact ⟨_, rfl, result, congrArg Flag.States.carry states, _, states⟩

section

variable {r : Registers} {rotation : Rotation} {byte : Byte} {done : Retirement}
  {bytes : List Byte} {later : List Registers}

/-- Each byte is rotated with the carry that the one before it has left. -/
lemma rotateEach_cons (run : (Instruction.rotate rotation).execute (r.withA byte) = .done done)
    (others : done.registers.rotateEach rotation bytes = .done later) :
    r.rotateEach rotation (byte :: bytes) = .done (done.registers :: later) := by
  rw [rotateEach, run]
  show (done.registers.rotateEach rotation bytes).bind _ = _
  rw [others]
  rfl

/-- The carry at the end is that of the last rotation. -/
lemma carryAfter_cons (s : Registers) :
    r.carryAfter (s :: later) = s.carryAfter later := by
  rw [carryAfter, List.getLastD_cons]
  rfl

/-- Flags that were left by one rotation after another are as by one. -/
lemma RotatedFrom.trans {s t : Registers} (first : r.RotatedFrom s) (second : s.RotatedFrom t) :
    r.RotatedFrom t := by
  obtain ⟨_, first⟩ := first
  obtain ⟨out, second⟩ := second
  rw [first] at second
  exact ⟨out, second⟩

/-- All flags of a chain are as left by rotations from its beginning. -/
lemma RotatedFrom.cons {s : Registers} (first : r.RotatedFrom s)
    (flags : ∀ t ∈ later, s.RotatedFrom t) : ∀ t ∈ s :: later, r.RotatedFrom t :=
  List.forall_mem_cons.mpr ⟨first, fun t found => first.trans (flags t found)⟩

end

/-- The carry out of a byte is what the byte above it takes in. -/
theorem exists_doubles (r : Registers) (bytes : List Byte) : ∃ after, r.Doubles bytes after := by
  induction bytes generalizing r with
  | nil => exact ⟨[], rfl, rfl, Nat.zero_add _, nofun⟩
  | cons byte rest ih =>
    obtain ⟨done, run, result, out, flags⟩ := execute_rotate .rla r byte
    obtain ⟨later, above⟩ := ih done.registers
    refine ⟨done.registers :: later, rotateEach_cons run above.runs,
      congrArg (· + 1) above.length, ?_, flags.cons above.flags⟩
    have lowest := Rotation.rla_exact byte r.carry
    have higher := above.value
    rw [out] at higher
    rw [carryAfter_cons, List.map_cons, Byte.number_cons, Byte.number_cons, result,
      List.length_cons, pow_succ]
    linarith only [lowest, higher]

/-- The carry out of a byte is what the byte below it takes in. -/
theorem exists_halves (r : Registers) (bytes : List Byte) : ∃ after, r.Halves bytes after := by
  induction bytes using List.reverseRecOn generalizing r with
  | nil =>
    refine ⟨[], rfl, rfl, ?_, nofun⟩
    simp [Byte.number, carryAfter]
  | append_singleton rest byte ih =>
    obtain ⟨done, run, result, out, flags⟩ := execute_rotate .rra r byte
    obtain ⟨later, below⟩ := ih done.registers
    refine ⟨done.registers :: later, ?_, ?_, ?_, flags.cons below.flags⟩
    · rw [List.reverse_concat]
      exact rotateEach_cons run below.runs
    · rw [List.length_cons, List.length_append, below.length, List.length_singleton]
    · have highest := Rotation.rra_exact byte r.carry
      have lower := below.value
      rw [out] at lower
      rw [carryAfter_cons, List.map_cons, List.reverse_cons, Byte.number_concat,
        Byte.number_concat, result, List.length_reverse, List.length_map, below.length,
        List.length_append, List.length_singleton, pow_succ]
      linear_combination lower + 256 ^ rest.length * highest

/-- Rotations through the carry shift a number of any length by one bit. `RLA`, from its lowest byte to
its highest, makes of it twice the number and the carry, with what is left over in the carry; `RRA`,
from its highest byte to its lowest, halves the number that the carry stands above, with the remainder
in the carry. Neither touches sign, zero and parity; half carry and subtraction are clear after each of
them, and the two copied flags show the byte. Where `RLA` has doubled a number, `RRA` with the carry
that was left brings back every byte and the carry there was. -/
theorem rotations_shift (r : Registers) (bytes : List Byte) :
    ∃ left right, r.Doubles bytes left ∧ r.Halves bytes right ∧
      ∀ s : Registers, s.carry = r.carryAfter left →
        ∃ back, s.Halves (left.map a) back ∧ (back.map a).reverse = bytes ∧
          s.carryAfter back = r.carry := by
  obtain ⟨left, doubles⟩ := r.exists_doubles bytes
  obtain ⟨right, halves⟩ := r.exists_halves bytes
  refine ⟨left, right, doubles, halves, ?_⟩
  intro s carry
  obtain ⟨back, undoes⟩ := s.exists_halves (left.map a)
  have length : (left.map a).length = bytes.length := by
    rw [List.length_map, doubles.length]
  have doubled := doubles.value
  have halved := undoes.value
  rw [carry, length, doubled] at halved
  -- Twice a number and a carry determine both.
  have out := (s.carryAfter back).toNat_le
  have once := r.carry.toNat_le
  refine ⟨back, undoes, ?_, ?_⟩
  · apply Byte.eq_of_number_eq
    · rw [List.length_reverse, List.length_map, undoes.length, length]
    · omega
  · have same : (s.carryAfter back).toNat = r.carry.toNat := by omega
    rw [← Bool.ofNat_toNat (s.carryAfter back), same, Bool.ofNat_toNat]

end Registers

end Z80
