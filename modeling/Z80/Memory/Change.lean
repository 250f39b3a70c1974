import Z80.Memory.Basic

/-!
# Changes of memory

What differs between two states of memory, as runs of consecutive addresses in ascending order, each
run with the bytes it holds in the later state.
-/

namespace Z80

/-- The addresses from `base` on at which two trees differ, with the later byte, put before
`rest`. -/
def Tree.changesBefore : {n : Nat} → Tree n → Tree n → Nat → List (Nat × Byte) → List (Nat × Byte)
  | _, .leaf old, .leaf new, base, rest => if old = new then rest else (base, new) :: rest
  | _, .node (n := n) oldLeft oldRight, .node newLeft newRight, base, rest =>
    oldLeft.changesBefore newLeft base (oldRight.changesBefore newRight (base + (1 <<< n)) rest)

namespace Memory

/-- Puts a changed byte before the runs that follow it: into the first of them if it ends where that
one begins. -/
def extendRuns (change : Nat × Byte) : List (Nat × List Byte) → List (Nat × List Byte)
  | (start, values) :: later =>
    if start = change.1 + 1 then (change.1, change.2 :: values) :: later
    else (change.1, [change.2]) :: (start, values) :: later
  | [] => [(change.1, [change.2])]

/-- The changed addresses and their bytes in the later state. -/
def changes (old new : Memory) : List (Nat × Byte) := old.tree.changesBefore new.tree 0 []

/-- The longest runs of consecutive changed addresses. -/
def changedRuns (old new : Memory) : List (Nat × List Byte) :=
  (changes old new).foldr extendRuns []

end Memory

end Z80
