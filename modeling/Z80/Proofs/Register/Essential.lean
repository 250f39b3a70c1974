import Mathlib.Tactic.Lemma
import Z80.Execution.Instruction

/-!
# Essential flags

Conditions test four of the flags, and arithmetic takes in one of these, the carry. The other four,
which are half carry, subtract and the two copied bits, are computed, and kept in F and in its
shadow, but nothing is computed from them. Register banks that agree but for them give the same to
whoever does not ask for F or AF as a whole, and whatever is done to both of them, they still agree
(`Registers.Agree` and the lemmas on it).
-/

namespace Z80

/-- The flags but for half carry, subtract and the two copied bits. -/
def Flag.essential : Byte := ~~~(halfCarry ||| subtract ||| copies)

/-- A flag that conditions may ask for is as it was among the essential ones. -/
lemma Flag.isSet_and_essential {mask : Byte} (tested : essential &&& mask = mask) (flags : Byte) :
    isSet (flags &&& essential) mask = isSet flags mask := by
  rw [isSet, isSet, UInt8.and_assoc, tested]

/-- Every condition tests an essential flag. -/
lemma Condition.holds_and_essential (c : Condition) (flags : Byte) :
    c.holds (flags &&& Flag.essential) = c.holds flags := by
  have tested : Flag.essential &&& c.flag = c.flag := by cases c <;> decide
  rw [holds, holds, Flag.isSet_and_essential tested]

/-- What an update makes of a flag depends on that flag alone. -/
lemma FlagUpdate.apply_and (u : FlagUpdate) (flags mask : Byte) :
    u.apply flags &&& mask = u.apply (flags &&& mask) &&& mask := by
  apply UInt8.toBitVec_inj.mp
  ext i hi
  simp only [apply, UInt8.toBitVec_and, UInt8.toBitVec_or, UInt8.toBitVec_not, BitVec.getElem_and,
    BitVec.getElem_or, BitVec.getElem_not]
  cases u.set.toBitVec[i] <;> cases u.clear.toBitVec[i] <;> cases mask.toBitVec[i] <;>
    cases flags.toBitVec[i] <;> rfl

namespace Word

/-- The word with only the bits of the mask left in its low half. -/
def maskLow (w : Word) (mask : Byte) : Word := w.withLow (w.low &&& mask)

variable (w : Word) (mask : Byte)

/-- To mask the low half of a word leaves the high half as it is. -/
@[simp] lemma high_maskLow : (w.maskLow mask).high = w.high := high_ofHalves _ _

/-- To mask the low half of a word masks it. -/
@[simp] lemma low_maskLow : (w.maskLow mask).low = w.low &&& mask := low_ofHalves _ _

/-- A word of two halves is masked in its low one. -/
@[simp] lemma maskLow_ofHalves (high low : Byte) :
    (ofHalves high low).maskLow mask = ofHalves high (low &&& mask) := by
  rw [maskLow, withLow, high_ofHalves, low_ofHalves]

end Word

namespace Registers

/-- The registers with the flags cleared that are not essential, in F and in its shadow. -/
def essential (r : Registers) : Registers :=
  { r with
    af := r.af.maskLow Flag.essential
    shadow := { r.shadow with af := r.shadow.af.maskLow Flag.essential } }

/-- The same but for flags that are not essential. -/
def Agree (r r' : Registers) : Prop := r.essential = r'.essential

namespace Agree

variable {r r' : Registers} (h : r.Agree r')

include h

/-- What is read off the essential part is the same. -/
lemma same {γ : Type} (f : Registers → γ) : f r.essential = f r'.essential := congrArg f h

/-- An operation that may as well be done to the essential part keeps banks in agreement. -/
lemma update (f : Registers → Registers) (plain : ∀ x, (f x).essential = f x.essential) :
    (f r).Agree (f r') :=
  (plain r).trans ((h.same f).trans (plain r').symm)

/-- Banks that agree have the same program counter. -/
lemma pc : r.pc = r'.pc := h.same Registers.pc

/-- Banks that agree have the same in every pair but that of the flags. -/
lemma readWord {name : WordRegister} (other : name ≠ .af) : r.readWord name = r'.readWord name := by
  cases name with
  | af => exact absurd rfl other
  | bc => exact h.same Registers.bc
  | de => exact h.same Registers.de
  | hl => exact h.same Registers.hl
  | sp => exact h.same Registers.sp
  | pc => exact h.pc

/-- Banks that agree have the same accumulator. -/
lemma a : r.a = r'.a := by
  have high := h.same fun x => x.af.high
  simp only [essential, Word.high_maskLow] at high
  exact high

/-- Banks that agree have the same in every byte register but the flags. -/
lemma readByte {name : ByteRegister} (other : name ≠ .f) : r.readByte name = r'.readByte name := by
  cases name with
  | f => exact absurd rfl other
  | a => exact h.a
  | b | d | h => exact congrArg Word.high (h.readWord (by decide))
  | c | e | l => exact congrArg Word.low (h.readWord (by decide))

/-- Banks that agree have the same essential flags. -/
lemma flags : r.flags &&& Flag.essential = r'.flags &&& Flag.essential := by
  have low := h.same fun x => x.af.low
  simp only [essential, Word.low_maskLow] at low
  exact low

/-- Banks that agree have the same carry. -/
lemma carry : r.carry = r'.carry := by
  have tested : Flag.essential &&& Flag.carry = Flag.carry := by decide
  rw [Registers.carry, flagIsSet, ← Flag.isSet_and_essential tested, h.flags,
    Flag.isSet_and_essential tested]
  rfl

/-- Banks that agree meet the same conditions. -/
lemma meets (condition : Option Condition) : r.meets condition = r'.meets condition := by
  cases condition with
  | none => rfl
  | some c =>
    show c.holds r.flags = c.holds r'.flags
    rw [← c.holds_and_essential, h.flags, c.holds_and_essential]

/-- Words that are the same under the mask may be written to AF. -/
lemma writeAf {value value' : Word}
    (same : value.maskLow Flag.essential = value'.maskLow Flag.essential) :
    (r.writeWord .af value).Agree (r'.writeWord .af value') := by
  show r.essential.writeWord .af (value.maskLow Flag.essential) =
    r'.essential.writeWord .af (value'.maskLow Flag.essential)
  rw [same]
  exact h.same fun x => x.writeWord .af (value'.maskLow Flag.essential)

/-- Banks that agree still do when the same word is written to both. -/
lemma writeWord (name : WordRegister) (value : Word) :
    (r.writeWord name value).Agree (r'.writeWord name value) := by
  cases name with
  | af => exact h.writeAf rfl
  | _ => exact h.update (fun x => x.writeWord _ value) fun _ => rfl

/-- Banks that agree still do when they are given flags that have the same essential ones. -/
lemma withFlags {value value' : Byte}
    (same : value &&& Flag.essential = value' &&& Flag.essential) :
    (r.withFlags value).Agree (r'.withFlags value') := by
  apply h.writeAf
  show (Word.ofHalves r.a value).maskLow _ = (Word.ofHalves r'.a value').maskLow _
  rw [Word.maskLow_ofHalves, Word.maskLow_ofHalves, h.a, same]

/-- Banks that agree still do when the same is written to both accumulators. -/
lemma withA (value : Byte) : (r.withA value).Agree (r'.withA value) := by
  apply h.writeAf
  show (Word.ofHalves value r.flags).maskLow _ = (Word.ofHalves value r'.flags).maskLow _
  rw [Word.maskLow_ofHalves, Word.maskLow_ofHalves, h.flags]

/-- Banks that agree still do when the same byte is written to both. -/
lemma writeByte (name : ByteRegister) (value : Byte) :
    (r.writeByte name value).Agree (r'.writeByte name value) := by
  cases name with
  | a => exact h.withA value
  | f => exact h.withFlags rfl
  | _ => exact h.update (fun x => x.writeByte _ value) fun _ => rfl

/-- Banks that agree still do when the flags of both are updated alike. -/
lemma updateFlags (u : FlagUpdate) : (r.updateFlags u).Agree (r'.updateFlags u) := by
  apply h.withFlags
  rw [u.apply_and, h.flags, ← u.apply_and]

/-- Banks that agree still do when the same result and its flags are written to both. -/
lemma settle (a : Byte) (u : FlagUpdate) : (r.settle a u).Agree (r'.settle a u) :=
  (h.withA a).updateFlags u

/-- Banks that agree still do when the same exchange is made in both. -/
lemma exchange (kind : Exchange) : (r.exchange kind).Agree (r'.exchange kind) := by
  apply h.update fun x => x.exchange kind
  cases kind <;> exact fun _ => rfl

end Agree

end Registers

end Z80
