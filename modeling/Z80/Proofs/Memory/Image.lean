import Mathlib.Tactic.Lemma
import Z80.Memory.Basic

/-!
# The image of memory

All bytes of memory in a row, from the first address to the last (`Memory.image`). There are 65536 of
them, whatever was stored (`Memory.length_image`), and an address is the position of its byte
(`Memory.getElem?_image`), so no address is past the end.
-/

namespace Z80

namespace Tree

/-- The bytes of a tree, from the leftmost leaf to the rightmost. -/
def toList : {n : Nat} → Tree n → List Byte
  | _, .leaf value => [value]
  | _, .node left right => left.toList ++ right.toList

/-- A tree has as many leaves as its depth says. -/
lemma length_toList {n : Nat} (t : Tree n) : t.toList.length = 1 <<< n := by
  induction t with
  | leaf => rfl
  | @node n left right ihl ihr =>
    have double : 1 <<< (n + 1) = 2 * 1 <<< n := Nat.shiftLeft_succ 1 n
    rw [toList, List.length_append, ihl, ihr]
    omega

/-- The leaves are listed in the order of their addresses. -/
lemma getElem?_toList {n : Nat} (t : Tree n) {address : Nat} (h : address < 1 <<< n) :
    t.toList[address]? = some (t.get address) := by
  induction t generalizing address with
  | leaf value =>
    obtain rfl : address = 0 := Nat.lt_one_iff.mp h
    rfl
  | @node n left right ihl ihr =>
    have double : 1 <<< (n + 1) = 2 * 1 <<< n := Nat.shiftLeft_succ 1 n
    have half : left.toList.length = 1 <<< n := left.length_toList
    by_cases side : address < 1 <<< n
    · have first : (node left right).get address = left.get address := by
        simp only [get, testBit_of_lt side, Bool.false_eq_true, if_false]
      rw [toList, List.getElem?_append_left (half ▸ side), ihl side, first]
    · obtain ⟨offset, rfl⟩ := Nat.exists_eq_add_of_le (Nat.le_of_not_lt side)
      have short : offset < 1 <<< n := by omega
      -- The right half does not look at the bit that led there.
      have low : ∀ i < n, ((1 <<< n) + offset).testBit i = offset.testBit i := by
        intro i hi
        rw [Nat.one_shiftLeft]
        exact Nat.testBit_two_pow_add_gt hi offset
      have past : left.toList.length ≤ (1 <<< n) + offset := half ▸ Nat.le_add_right _ _
      rw [toList, List.getElem?_append_right past, half, Nat.add_sub_cancel_left, ihr short,
        get_node_add _ _ _ short, get_congr right low]

end Tree

namespace Memory

/-- The bytes of memory in the order of their addresses. -/
def image (m : Memory) : List Byte := m.tree.toList

/-- There are 65536 bytes in memory. -/
lemma length_image (m : Memory) : m.image.length = 65536 := m.tree.length_toList

/-- The image has at each address the byte that memory holds there. -/
lemma getElem?_image (m : Memory) (address : Word) :
    m.image[address.toNat]? = some (m.get address) :=
  m.tree.getElem?_toList address.toNat_lt

end Memory

end Z80
