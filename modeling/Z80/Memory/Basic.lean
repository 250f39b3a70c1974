import Z80.Memory.Tree

/-!
# Memory

The 64 KiB address space. Addresses are words, so every address is in range and a run of bytes
that passes the last address goes on at the first.

Main statement: memory is determined by the byte at each address (`Memory.ext_get`), and a write
changes the byte at its own address only (`Memory.get_set`).
-/

namespace Z80

/-- A byte for each of the 65536 addresses. -/
structure Memory where
  /-- The bytes, as the leaves of a tree of depth 16. -/
  tree : Tree 16
  deriving DecidableEq

namespace Memory

/-- How many bytes there are. -/
def size : Nat := UInt16.size

/-- Memory that holds zeros. -/
def blank : Memory := ⟨Tree.fill 0 16⟩

def get (m : Memory) (address : Word) : Byte := m.tree.get address.toNat

def set (m : Memory) (address : Word) (value : Byte) : Memory :=
  ⟨m.tree.set address.toNat value⟩

/-- Stores bytes at consecutive addresses. -/
def load (m : Memory) (address : Word) : List Byte → Memory
  | [] => m
  | value :: rest => (m.set address value).load (address + 1) rest

/-- The low byte first: the word at an address and the one that follows it. -/
def getWord (m : Memory) (address : Word) : Word :=
  Word.ofHalves (m.get (address + 1)) (m.get address)

/-- Different addresses differ in one of their sixteen bits. -/
theorem exists_testBit_ne {a b : Word} (h : a ≠ b) :
    ∃ i < 16, a.toNat.testBit i ≠ b.toNat.testBit i := by
  apply Classical.byContradiction
  intro hno
  apply h
  apply UInt16.toNat.inj
  apply Nat.eq_of_testBit_eq
  intro i
  by_cases hi : i < 16
  · apply Classical.byContradiction
    intro hne
    exact hno ⟨i, hi, hne⟩
  · have wide : 1 <<< 16 ≤ 1 <<< i := by
      rw [Nat.one_shiftLeft, Nat.one_shiftLeft]
      exact Nat.pow_le_pow_right (by decide) (Nat.le_of_not_lt hi)
    have ha : a.toNat < 1 <<< i := Nat.lt_of_lt_of_le a.toNat_lt wide
    have hb : b.toNat < 1 <<< i := Nat.lt_of_lt_of_le b.toNat_lt wide
    rw [Tree.testBit_of_lt ha, Tree.testBit_of_lt hb]

/-- Blank memory holds zeros. -/
@[simp] theorem get_blank (address : Word) : blank.get address = 0 := Tree.get_fill 0 16 _

/-- A write shows at its address and nowhere else. -/
theorem get_set (m : Memory) (a b : Word) (value : Byte) :
    (m.set a value).get b = if b = a then value else m.get b := by
  by_cases h : b = a
  · subst h
    rw [if_pos rfl]
    exact Tree.get_set_self m.tree _ value
  · rw [if_neg h]
    exact Tree.get_set_of_testBit_ne m.tree value (exists_testBit_ne (Ne.symm h))

/-- Memories that hold the same at every address are the same. -/
theorem ext_get {m n : Memory} (h : ∀ a : Word, m.get a = n.get a) : m = n := by
  have ht : m.tree = n.tree := by
    apply Tree.ext_get
    intro a ha
    have := h (UInt16.ofNat a)
    unfold get at this
    rwa [UInt16.toNat_ofNat_of_lt' ha] at this
  cases m
  cases n
  exact congrArg Memory.mk ht

end Memory

end Z80
