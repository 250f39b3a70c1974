import Mathlib.Tactic.Lemma
import Z80.Flag.Rule

/-!
# Flags from tables

The flags of an operation may be looked up instead of computed: in a table with an entry for every
byte (`Byte.row`), or in one with an entry for every pair of operands and every carry, which are packed
into one index (`FlagTable.index`). A lookup past the end of a table gives nothing. None is past the
end, and each gives what the rule computes (`Byte.getElem?_row`, `FlagTable.getElem?_ofOperands`).
-/

namespace Z80

namespace Byte

variable {α : Type}

/-- A table with an entry for every byte, in order. -/
def row (f : Byte → α) : List α := (List.range 256).map fun n => f (.ofNat n)

/-- The table over all bytes has at each byte what belongs to it. -/
lemma getElem?_row (f : Byte → α) (x : Byte) : (row f)[x.toNat]? = some (f x) := by
  rw [row, List.getElem?_map, List.getElem?_range x.toNat_lt]
  exact congrArg (fun x => some (f x)) UInt8.ofNat_toNat

end Byte

namespace FlagTable

/-- Where two operands and a carry are found in a table of them all. -/
def index (a b : Byte) (carryIn : Bool) : Nat :=
  carryIn.toNat <<< 16 ||| a.toNat <<< 8 ||| b.toNat

/-- The flags of all operands and carries, in a row. -/
def ofOperands (flags : Byte → Byte → Bool → Byte) : List Byte :=
  (List.range (2 * (256 * 256))).map fun n =>
    flags (.ofNat (n / 256)) (.ofNat n) (decide (256 * 256 ≤ n))

/-- The place in the table counts the operands as the digits of a number, the carry first. -/
lemma index_eq (a b : Byte) (carryIn : Bool) :
    index a b carryIn = 256 * 256 * carryIn.toNat + 256 * a.toNat + b.toNat := by
  have ha := a.toNat_lt
  have hb := b.toNat_lt
  have low : a.toNat <<< 8 + b.toNat = a.toNat <<< 8 ||| b.toNat :=
    Nat.shiftLeft_add_eq_or_of_lt hb _
  have below : a.toNat <<< 8 + b.toNat < 2 ^ 16 := by
    rw [Nat.shiftLeft_eq]
    omega
  unfold index
  rw [Nat.or_assoc, ← low, ← Nat.shiftLeft_add_eq_or_of_lt below, Nat.shiftLeft_eq,
    Nat.shiftLeft_eq]
  omega

/-- The table over all operands and carries has at their place the flags that belong to them. -/
lemma getElem?_ofOperands (flags : Byte → Byte → Bool → Byte) (a b : Byte) (carryIn : Bool) :
    (ofOperands flags)[index a b carryIn]? = some (flags a b carryIn) := by
  have ha := a.toNat_lt
  have hb := b.toNat_lt
  have hc : carryIn.toNat ≤ 1 := carryIn.toNat_le
  have short : index a b carryIn < 2 * (256 * 256) := by
    rw [index_eq]
    omega
  -- The entry at an index is for the operands and the carry that were packed into it.
  have first : UInt8.ofNat (index a b carryIn / 256) = a := by
    apply UInt8.toNat.inj
    rw [index_eq, UInt8.toNat_ofNat']
    omega
  have second : UInt8.ofNat (index a b carryIn) = b := by
    apply UInt8.toNat.inj
    rw [index_eq, UInt8.toNat_ofNat']
    omega
  have third : decide (256 * 256 ≤ index a b carryIn) = carryIn := by
    rw [index_eq]
    cases carryIn with
    | false =>
      apply decide_eq_false
      show ¬ 256 * 256 ≤ 256 * 256 * 0 + 256 * a.toNat + b.toNat
      omega
    | true =>
      apply decide_eq_true
      show 256 * 256 ≤ 256 * 256 * 1 + 256 * a.toNat + b.toNat
      omega
  rw [ofOperands, List.getElem?_map, List.getElem?_range short, Option.map_some, first, second,
    third]

/-- The update that gives the flags of the mask what the table has for a byte. -/
def assign? (mask : Byte) (flags : Byte → Byte) (value : Byte) : Option FlagUpdate :=
  (Byte.row flags)[value.toNat]?.map (.assign mask)

/-- The update that gives the flags of the mask what the table has for two operands and a carry. -/
def assignOperands? (mask : Byte) (flags : Byte → Byte → Bool → Byte) (a b : Byte)
    (carryIn : Bool) : Option FlagUpdate :=
  (ofOperands flags)[index a b carryIn]?.map (.assign mask)

/-- A look into the table over all bytes never fails, and finds the flags of the byte. -/
lemma assign?_eq (mask : Byte) (flags : Byte → Byte) (value : Byte) :
    assign? mask flags value = some (.assign mask (flags value)) := by
  rw [assign?, Byte.getElem?_row]
  rfl

/-- A look into the table over all operands never fails, and finds the flags of the operands. -/
lemma assignOperands?_eq (mask : Byte) (flags : Byte → Byte → Bool → Byte) (a b : Byte)
    (carryIn : Bool) :
    assignOperands? mask flags a b carryIn = some (.assign mask (flags a b carryIn)) := by
  rw [assignOperands?, getElem?_ofOperands]
  rfl

end FlagTable

namespace FlagRule

/-- The flags of a sum, looked up. -/
def add? : Byte → Byte → Bool → Option FlagUpdate := FlagTable.assignOperands? Flag.all sumFlags

/-- The flags of a difference, looked up. -/
def sub? : Byte → Byte → Bool → Option FlagUpdate :=
  FlagTable.assignOperands? Flag.all differenceFlags

def compare? (a b : Byte) : Option FlagUpdate :=
  (sub? a b false).map (·.overlay (.assign Flag.copies b))

/-- The entry of an increment has no carry, and its update leaves the carry. -/
def increment? : Byte → Option FlagUpdate :=
  FlagTable.assign? (~~~Flag.carry) fun operand => sumFlags operand 1 false &&& ~~~Flag.carry

def decrement? : Byte → Option FlagUpdate :=
  FlagTable.assign? (~~~Flag.carry) fun operand => differenceFlags operand 1 false &&& ~~~Flag.carry

def conjunction? : Byte → Option FlagUpdate :=
  FlagTable.assign? Flag.all fun value =>
    resultFlags value ||| Flag.halfCarry ||| Byte.maskIf Flag.parity value.evenParity

def disjunction? : Byte → Option FlagUpdate :=
  FlagTable.assign? Flag.all fun value =>
    resultFlags value ||| Byte.maskIf Flag.parity value.evenParity

def rotation? : Byte → Option FlagUpdate :=
  FlagTable.assign? (Flag.copies ||| Flag.halfCarry ||| Flag.subtract) (· &&& Flag.copies)

/-- Sign, zero and the two copied bits of a result, looked up. -/
def result? : Byte → Option FlagUpdate := FlagTable.assign? Flag.ofResult resultFlags

/-- The table has the flags of every sum. -/
@[simp] lemma add?_eq (a b : Byte) (carryIn : Bool) : add? a b carryIn = some (add a b carryIn) :=
  FlagTable.assignOperands?_eq _ _ a b carryIn

/-- The table has the flags of every difference. -/
@[simp] lemma sub?_eq (a b : Byte) (carryIn : Bool) : sub? a b carryIn = some (sub a b carryIn) :=
  FlagTable.assignOperands?_eq _ _ a b carryIn

/-- The table has the flags of every comparison. -/
@[simp] lemma compare?_eq (a b : Byte) : compare? a b = some (compare a b) := by
  rw [compare?, sub?_eq]
  rfl

/-- Flags that are masked in the table already are assigned alike. -/
lemma assign_and_mask (mask values : Byte) :
    FlagUpdate.assign mask (values &&& mask) = .assign mask values := by
  have set : values &&& mask &&& mask = values &&& mask := by
    rw [UInt8.and_assoc, UInt8.and_self]
  have clear : ~~~(values &&& mask) &&& mask = ~~~values &&& mask := by
    apply UInt8.toBitVec_inj.mp
    ext i hi
    simp only [UInt8.toBitVec_and, UInt8.toBitVec_not, BitVec.getElem_and, BitVec.getElem_not]
    cases values.toBitVec[i] <;> cases mask.toBitVec[i] <;> rfl
  unfold FlagUpdate.assign
  rw [set, clear]

/-- The table has the flags of every increment. -/
@[simp] lemma increment?_eq (operand : Byte) : increment? operand = some (increment operand) := by
  rw [increment?, FlagTable.assign?_eq, assign_and_mask]
  rfl

/-- The table has the flags of every decrement. -/
@[simp] lemma decrement?_eq (operand : Byte) : decrement? operand = some (decrement operand) := by
  rw [decrement?, FlagTable.assign?_eq, assign_and_mask]
  rfl

/-- The table has the flags of every conjunction. -/
@[simp] lemma conjunction?_eq (value : Byte) : conjunction? value = some (conjunction value) :=
  FlagTable.assign?_eq _ _ value

/-- The table has the flags of every disjunction. -/
@[simp] lemma disjunction?_eq (value : Byte) : disjunction? value = some (disjunction value) :=
  FlagTable.assign?_eq _ _ value

/-- The table has the flags of every rotation but its carry. -/
@[simp] lemma rotation?_eq (value : Byte) : rotation? value = some (rotation value) :=
  FlagTable.assign?_eq _ _ value

/-- The table has the flags of every result. -/
@[simp] lemma result?_eq (value : Byte) : result? value = some (result value) :=
  FlagTable.assign?_eq _ _ value

end FlagRule

end Z80
