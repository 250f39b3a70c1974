import Mathlib.Tactic.LinearCombination
import Mathlib.Tactic.Linarith
import Mathlib.Tactic.Ring
import Z80.Proofs.Flag.Bit

/-!
# Exact arithmetic

What the flags after an addition or a subtraction with carry say about the numbers that were worked
on: the carry makes up for the wrap, the overflow flag shows that the signed result does not fit,
and the sign flag is its sign (`Exact`). The same can be said of one digit and of a number of many
digits, with the modulus to match, and what holds of the low digits and of the digits above them
holds of the whole number when the carry goes from one to the other (`Exact.append`).
-/

namespace Z80

/-- The carry, as a number to be added. -/
def Flag.carryValue (flags : Byte) : Nat := (isSet flags carry).toNat

/-- The carry counts nothing or one. -/
lemma Flag.carryValue_eq (flags : Byte) : carryValue flags = 0 ∨ carryValue flags = 1 := by
  unfold carryValue
  cases isSet flags carry with
  | false => exact .inl rfl
  | true => exact .inr rfl

/-- The number is one of those that two's complement has below the modulus. -/
def Representable (modulus : Nat) (x : Int) : Prop := -(modulus : Int) ≤ 2 * x ∧ 2 * x < modulus

/-- With `direction` one, `result` is the sum of `a`, `b` and the carry before; with `direction`
minus one, `a` less `b` and less the carry before. It is wrapped to the modulus, and the flags
afterwards tell how. -/
structure Exact (modulus : Nat) (direction : Int) (a b result : Nat) (before after : Byte) :
    Prop where
  bounded : result < modulus
  value : result + direction * (Flag.carryValue after * modulus) =
    a + direction * (b + Flag.carryValue before)
  overflow : Flag.isSet after Flag.parity = true ↔
    ¬ Representable modulus
      ((a : Int).bmod modulus + direction * ((b : Int).bmod modulus + Flag.carryValue before))
  sign : Flag.isSet after Flag.sign = true ↔ (result : Int).bmod modulus < 0

/-- What a number stands for in two's complement. -/
lemma bmod_of_lt {half x : Nat} (h : x < 2 * half) :
    (x : Int).bmod (2 * half) = if x < half then (x : Int) else x - 2 * half := by
  have inside : (x : Int) % ((2 * half : Nat) : Int) = x := Int.emod_eq_of_lt (by omega) (by omega)
  rw [Int.bmod_def, inside]
  split <;> split <;> omega

/-- Multiples of the modulus decide between numbers, whatever comes below the modulus. -/
lemma add_mul_lt_mul_iff {r m t h : Int} (nonneg : 0 ≤ r) (lt : r < m) :
    r + m * t < m * h ↔ t < h := by
  constructor
  · intro below
    by_contra above
    nlinarith
  · intro below
    nlinarith

/-- Whether a number of two digits stays below a bound on the high one is decided by the high
one. -/
lemma add_mul_lt_mul_iff_nat {r m t h : Nat} (lt : r < m) : r + m * t < m * h ↔ t < h := by
  zify
  exact add_mul_lt_mul_iff (by omega) (by omega)

namespace Exact

variable {m half : Nat} {direction : Int} {a b r a' b' r' : Nat} {f g h : Byte}

/-- The sign of a number is the sign of its highest digit. -/
lemma bmod_append (ha : a < m) (ha' : a' < 2 * half) :
    ((a + m * a' : Nat) : Int).bmod (m * (2 * half)) = a + m * (a' : Int).bmod (2 * half) := by
  have double : m * (2 * half) = 2 * (m * half) := by ring
  have whole : a + m * a' < 2 * (m * half) := by
    rw [← double]
    exact (add_mul_lt_mul_iff_nat ha).mpr ha'
  rw [double, bmod_of_lt whole, bmod_of_lt ha']
  simp only [add_mul_lt_mul_iff_nat ha]
  split
  case isTrue => push_cast; ring
  case isFalse => push_cast; ring

/-- Whether a number of two digits is representable is decided by the high one. -/
lemma representable_append {t : Int} (hr : r < m) :
    Representable (m * (2 * half)) (r + m * t) ↔ Representable (2 * half) t := by
  have nonneg : (0 : Int) ≤ r := Int.natCast_nonneg r
  have lt : (r : Int) < m := by exact_mod_cast hr
  have below := add_mul_lt_mul_iff (t := t) (h := half) nonneg lt
  have above := add_mul_lt_mul_iff (t := t) (h := -half) nonneg lt
  have double : ((m * (2 * half) : Nat) : Int) = 2 * (m * half) := by push_cast; ring
  have opposite : (m : Int) * -half = -(m * half) := by ring
  rw [opposite] at above
  unfold Representable
  rw [double]
  push_cast
  omega

/-- What is exact in the low digits and, with the carry they leave, in the digits above is exact in
the whole number. -/
theorem append {n : Nat} (even : 2 ∣ n) (low : Exact m direction a b r f g)
    (high : Exact n direction a' b' r' g h) (ha : a < m) (hb : b < m) (ha' : a' < n)
    (hb' : b' < n) :
    Exact (m * n) direction (a + m * a') (b + m * b') (r + m * r') f h := by
  obtain ⟨half, rfl⟩ := even
  have lowValue := low.value
  have highValue := high.value
  refine ⟨(add_mul_lt_mul_iff_nat low.bounded).mpr high.bounded, ?_, ?_, ?_⟩
  · push_cast at highValue ⊢
    linear_combination lowValue + m * highValue
  · -- The carry of the low digits is what the digits above begin with.
    have signed : ((a + m * a' : Nat) : Int).bmod (m * (2 * half)) +
        direction * (((b + m * b' : Nat) : Int).bmod (m * (2 * half)) + Flag.carryValue f) =
          r + m * ((a' : Int).bmod (2 * half) +
            direction * ((b' : Int).bmod (2 * half) + Flag.carryValue g)) := by
      rw [bmod_append ha ha', bmod_append hb hb']
      linear_combination -lowValue
    rw [signed, representable_append low.bounded]
    exact high.overflow
  -- The sign of the whole is that of its digits above.
  · have nonneg : (0 : Int) ≤ r := Int.natCast_nonneg r
    have lt : (r : Int) < m := by exact_mod_cast low.bounded
    have negative := add_mul_lt_mul_iff (t := (r' : Int).bmod (2 * half)) (h := 0) nonneg lt
    rw [mul_zero] at negative
    rw [bmod_append low.bounded high.bounded, negative]
    exact high.sign

/-- A sum of two digits is exact when the overflow shows as a sign that neither operand has. -/
lemma of_sum (ha : a < 2 * half) (hb : b < 2 * half) (hr : r < 2 * half)
    (value : r + Flag.carryValue g * (2 * half) = a + b + Flag.carryValue f)
    (parity : Flag.isSet g Flag.parity =
      ((decide (half ≤ a) == decide (half ≤ b)) && (decide (half ≤ b) != decide (half ≤ r))))
    (sign : Flag.isSet g Flag.sign = decide (half ≤ r)) :
    Exact (2 * half) 1 a b r f g where
  bounded := hr
  value := by
    zify at value
    push_cast
    linear_combination value
  overflow := by
    rw [parity, bmod_of_lt ha, bmod_of_lt hb, Representable, Bool.and_eq_true, beq_iff_eq,
      bne_iff_ne, ne_eq, decide_eq_decide, decide_eq_decide]
    obtain hf | hf := Flag.carryValue_eq f <;> obtain hg | hg := Flag.carryValue_eq g <;>
      rw [hf, hg] at value <;> rw [hf] <;> split <;> split <;> omega
  sign := by
    rw [sign, bmod_of_lt hr, decide_eq_true_iff]
    split <;> omega

/-- A difference of two digits is exact when the overflow shows as operands of different signs and a
result that has not the sign of the first. -/
lemma of_difference (ha : a < 2 * half) (hb : b < 2 * half) (hr : r < 2 * half)
    (value : r + b + Flag.carryValue f = a + Flag.carryValue g * (2 * half))
    (parity : Flag.isSet g Flag.parity =
      ((decide (half ≤ a) != decide (half ≤ b)) && (decide (half ≤ a) != decide (half ≤ r))))
    (sign : Flag.isSet g Flag.sign = decide (half ≤ r)) :
    Exact (2 * half) (-1) a b r f g where
  bounded := hr
  value := by
    zify at value
    push_cast
    linear_combination value
  overflow := by
    rw [parity, bmod_of_lt ha, bmod_of_lt hb, Representable, Bool.and_eq_true, bne_iff_ne,
      bne_iff_ne, ne_eq, ne_eq, decide_eq_decide, decide_eq_decide]
    obtain hf | hf := Flag.carryValue_eq f <;> obtain hg | hg := Flag.carryValue_eq g <;>
      rw [hf, hg] at value <;> rw [hf] <;> split <;> split <;> omega
  sign := by
    rw [sign, bmod_of_lt hr, decide_eq_true_iff]
    split <;> omega

end Exact

end Z80
