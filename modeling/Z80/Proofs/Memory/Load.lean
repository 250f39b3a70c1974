import Mathlib.Tactic.Lemma
import Z80.Memory.Basic

/-!
# Loaded bytes

What memory holds after bytes were stored at consecutive addresses (`Memory.get_load`): the bytes,
from the first address on and over the end of memory to its beginning, and elsewhere what it held.
-/

namespace Z80

/-- The distance from one address up to another, over the end of memory if need be. -/
lemma Word.toNat_offset (address first : Word) :
    (address - first).toNat = (address.toNat + 65536 - first.toNat) % 65536 := by
  have ha := address.toNat_lt
  have hf := first.toNat_lt
  rw [UInt16.toNat_sub]
  omega

/-- The offset from the second address of a run is one less than from the first. -/
lemma Word.toNat_offset_succ {address first : Word} (h : address ≠ first) :
    (address - first).toNat = (address - (first + 1)).toNat + 1 := by
  have ha := address.toNat_lt
  have hf := first.toNat_lt
  have hne : address.toNat ≠ first.toNat := fun e => h (UInt16.toNat.inj e)
  have hone : (1 : Word).toNat = 1 := rfl
  rw [toNat_offset, toNat_offset, UInt16.toNat_add, hone]
  omega

/-- No address is the one after it. -/
lemma Word.ne_add_one (w : Word) : w ≠ w + 1 := by
  intro same
  have hw := w.toNat_lt
  have hone : (1 : Word).toNat = 1 := rfl
  have values := congrArg UInt16.toNat same
  rw [UInt16.toNat_add, hone] at values
  omega

namespace Memory

/-- Bytes that are loaded are found from their address on, over the end of memory if need be, and
memory holds the same everywhere else. -/
theorem get_load (m : Memory) (first address : Word) {bytes : List Byte}
    (h : bytes.length ≤ 65536) :
    (m.load first bytes).get address = bytes[(address - first).toNat]?.getD (m.get address) := by
  induction bytes generalizing m first with
  | nil => rfl
  | cons value rest ih =>
    rw [List.length_cons] at h
    rw [load, ih (m.set first value) (first + 1) (by omega), get_set]
    by_cases ha : address = first
    · subst ha
      -- A run that comes back to its first address would have more than 65536 bytes.
      have back : rest.length ≤ (address - (address + 1)).toNat := by
        have hlt := address.toNat_lt
        have hone : (1 : Word).toNat = 1 := rfl
        rw [Word.toNat_offset, UInt16.toNat_add, hone]
        omega
      rw [List.getElem?_eq_none back, UInt16.sub_self]
      simp
    · rw [if_neg ha, Word.toNat_offset_succ ha, List.getElem?_cons_succ]

end Memory

end Z80
