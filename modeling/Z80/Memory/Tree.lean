import Z80.Word

/-!
# Byte trees

A perfect binary tree with a byte in each of its `2 ^ n` leaves, addressed by the bits of a number
from the highest to the lowest. Writing a byte copies one path, so older versions stay usable.

Main statements: a write is read back (`Tree.get_set_self`), a write is not seen at an address that
differs in one of the address bits (`Tree.get_set_of_testBit_ne`), and a tree is determined by what
its leaves hold (`Tree.ext_get`), so equal contents are equal trees.
-/

namespace Z80

/-- A perfect binary tree of depth `n` over bytes. -/
inductive Tree : Nat → Type where
  | leaf (value : Byte) : Tree 0
  | node {n : Nat} (left right : Tree n) : Tree (n + 1)
  deriving DecidableEq

namespace Tree

/-- A tree with the same value in every leaf. -/
def fill (value : Byte) : (n : Nat) → Tree n
  | 0 => .leaf value
  | n + 1 =>
    let half := fill value n
    .node half half

/-- The byte at an address. Address bits above the depth are ignored. -/
def get : {n : Nat} → Tree n → Nat → Byte
  | _, .leaf value, _ => value
  | _, .node (n := n) left right, address =>
    if address.testBit n then right.get address else left.get address

def set : {n : Nat} → Tree n → Nat → Byte → Tree n
  | _, .leaf _, _, value => .leaf value
  | _, .node (n := n) left right, address, value =>
    if address.testBit n then .node left (right.set address value)
    else .node (left.set address value) right

/-- A leaf holds what was put there. -/
@[simp] theorem get_set_self {n : Nat} (t : Tree n) (address : Nat) (value : Byte) :
    (t.set address value).get address = value := by
  induction t with
  | leaf => rfl
  | node left right ihl ihr =>
    unfold set
    split
    case isTrue h =>
      simp only [get, h, if_true]
      exact ihr
    case isFalse h =>
      simp only [get, h]
      exact ihl

/-- To put a value in one leaf does not change a leaf whose address differs in a bit that counts. -/
theorem get_set_of_testBit_ne {n : Nat} (t : Tree n) {a b : Nat} (value : Byte)
    (h : ∃ i < n, a.testBit i ≠ b.testBit i) : (t.set a value).get b = t.get b := by
  induction t with
  | leaf =>
    obtain ⟨i, hi, _⟩ := h
    exact absurd hi (Nat.not_lt_zero i)
  | @node n left right ihl ihr =>
    -- Where the two addresses agree in the top bit they differ in one below it.
    have low : a.testBit n = b.testBit n → ∃ i < n, a.testBit i ≠ b.testBit i := by
      intro hn
      obtain ⟨i, hi, hne⟩ := h
      refine ⟨i, ?_, hne⟩
      rcases Nat.lt_succ_iff_lt_or_eq.mp hi with hi | rfl
      · exact hi
      · exact absurd hn hne
    unfold set
    split
    case isTrue ha =>
      by_cases hb : b.testBit n = true
      · simp only [get, hb, if_true]
        exact ihr (low (by rw [ha, hb]))
      · simp only [get, hb]
        rfl
    case isFalse ha =>
      by_cases hb : b.testBit n = true
      · simp only [get, hb, if_true]
      · simp only [get, hb]
        exact ihl (low (by rw [Bool.not_eq_true] at ha hb; rw [ha, hb]))

/-- A filled tree holds the same value in every leaf. -/
@[simp] theorem get_fill (value : Byte) (n address : Nat) : (fill value n).get address = value := by
  induction n with
  | zero => rfl
  | succ n ih =>
    unfold fill get
    split
    · exact ih
    · exact ih

/-- An address below bit `n` has it clear. -/
theorem testBit_of_lt {n address : Nat} (h : address < 1 <<< n) : address.testBit n = false := by
  rw [Nat.one_shiftLeft] at h
  exact Nat.testBit_lt_two_pow h

/-- The right half of a tree holds the addresses with bit `n` set. -/
theorem get_node_add {n : Nat} (left right : Tree n) (address : Nat) (h : address < 1 <<< n) :
    (node left right).get ((1 <<< n) + address) = right.get ((1 <<< n) + address) := by
  have hb : ((1 <<< n) + address).testBit n = true := by
    rw [Nat.one_shiftLeft, Nat.testBit_two_pow_add_eq, testBit_of_lt h]
    rfl
  simp only [get, hb, if_true]

/-- Only the low bits of an address count. -/
theorem get_congr {n : Nat} (t : Tree n) {a b : Nat} (h : ∀ i < n, a.testBit i = b.testBit i) :
    t.get a = t.get b := by
  induction t with
  | leaf => rfl
  | @node n left right ihl ihr =>
    have hn := h n (Nat.lt_succ_self n)
    have hlow : ∀ i < n, a.testBit i = b.testBit i := fun i hi => h i (Nat.lt_succ_of_lt hi)
    simp only [get, hn]
    split
    · exact ihr hlow
    · exact ihl hlow

/-- Trees that hold the same in every leaf are the same. -/
theorem ext_get {n : Nat} {t u : Tree n} (h : ∀ a < 1 <<< n, t.get a = u.get a) : t = u := by
  induction t with
  | leaf v =>
    cases u with
    | leaf w => exact congrArg leaf (h 0 (by decide))
  | @node n left right ihl ihr =>
    have double : 1 <<< (n + 1) = 2 * 1 <<< n := Nat.shiftLeft_succ 1 n
    cases u with
    | node left' right' =>
      have hl : left = left' := by
        apply ihl
        intro a ha
        have hlt : a < 1 <<< (n + 1) := by omega
        have := h a hlt
        simpa only [get, testBit_of_lt ha, Bool.false_eq_true, if_false] using this
      have hr : right = right' := by
        apply ihr
        intro a ha
        have hlt : (1 <<< n) + a < 1 <<< (n + 1) := by omega
        -- The bit that leads to the right half is above those that count within it.
        have low : ∀ i < n, ((1 <<< n) + a).testBit i = a.testBit i := by
          intro i hi
          rw [Nat.one_shiftLeft]
          exact Nat.testBit_two_pow_add_gt hi a
        have := h ((1 <<< n) + a) hlt
        rwa [get_node_add _ _ _ ha, get_node_add _ _ _ ha, get_congr right low,
          get_congr right' low] at this
      rw [hl, hr]

end Tree

end Z80
