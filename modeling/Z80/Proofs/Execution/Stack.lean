import Z80.Execution.Stack
import Z80.Proofs.Microprogram.Placed
import Z80.Proofs.Microprogram.Storage

/-!
# The stack as a list

Pushes and pops do to memory what they do to a list of words (`StackOperation.stack_lifo`): each pop
takes the word it would take from the list, and the stack pointer stands two bytes lower for each word
that is there. This holds wherever the stack begins, over the end of memory as well, until the stack
takes up all of memory. Nothing is stored but in the window under the first stack pointer that the
stack has reached down to.
-/

namespace Z80

/-- What may be done to a stack of words. -/
inductive StackOperation where
  | push (value : Word)
  | pop
  deriving DecidableEq, Repr

namespace Word

/-- The bytes of words in memory, each with its low byte first. -/
def toBytes : List Word → List Byte
  | [] => []
  | value :: rest => value.low :: value.high :: toBytes rest

/-- A word takes two bytes. -/
lemma length_toBytes (values : List Word) : (toBytes values).length = 2 * values.length := by
  induction values with
  | nil => rfl
  | cons value rest ih =>
    show (toBytes rest).length + 1 + 1 = 2 * (rest.length + 1)
    omega

/-- The addresses under an address, so many of them, are a window. -/
lemma within_below {address : Word} {n depth : Nat} (some : 0 < depth) (most : depth ≤ n)
    (fits : n ≤ 65536) :
    (address - UInt16.ofNat n).Within n (address - UInt16.ofNat depth) := by
  have ha := address.toNat_lt
  unfold Within
  rw [toNat_offset, toNat_offset, toNat_offset, UInt16.toNat_ofNat', UInt16.toNat_ofNat']
  omega

/-- Two addresses down from an address that so many bytes above it are used, there is room. -/
lemma not_within_above {address : Word} {n : Nat} (short : n ≤ 65534) {depth : Word}
    (near : depth = 1 ∨ depth = 2) : ¬ address.Within n (address - depth) := by
  have ha := address.toNat_lt
  have hd : 0 < depth.toNat ∧ depth.toNat ≤ 2 := by
    obtain rfl | rfl := near
    · exact ⟨Nat.one_pos, Nat.le_succ 1⟩
    · exact ⟨Nat.two_pos, Nat.le_refl 2⟩
  unfold Within
  rw [toNat_offset, toNat_offset]
  omega

/-- To go down by a sum is to go down by its parts. -/
lemma sub_ofNat_add (address : Word) (m n : Nat) :
    address - UInt16.ofNat (m + n) = address - UInt16.ofNat m - UInt16.ofNat n := by
  have ha := address.toNat_lt
  apply UInt16.toNat.inj
  rw [toNat_offset, toNat_offset, toNat_offset]
  simp only [UInt16.toNat_ofNat']
  omega

end Word

/-- A write outside the window does not change the bytes there. -/
lemma Ram.Holds.set {m : Ram} {first : Word} {bytes : List Byte} (h : m.Holds first bytes)
    {address : Word} (outside : ¬ first.Within bytes.length address) (value : Byte) :
    ({ m with memory := m.memory.set address value } : Ram).Holds first bytes := by
  induction bytes generalizing first with
  | nil => exact trivial
  | cons byte rest ih =>
    obtain ⟨here, later⟩ := h
    have elsewhere : first ≠ address := by
      rintro rfl
      apply outside
      unfold Word.Within
      rw [UInt16.sub_self]
      exact Nat.succ_pos _
    refine ⟨?_, ?_⟩
    · rw [peek_set, if_neg elsewhere, here]
    · apply ih later
      intro within
      apply outside
      unfold Word.Within
      rw [Word.toNat_offset_succ elsewhere.symm]
      exact Nat.succ_lt_succ within

/-- The registers when so many words have been pushed. -/
def Registers.deepened (r : Registers) (depth : Nat) : Registers :=
  { r with sp := r.sp - UInt16.ofNat (2 * depth) }

/-- A push goes one word deeper. -/
lemma Registers.deepened_push (r : Registers) (depth : Nat) :
    { r.deepened depth with sp := (r.deepened depth).sp - 2 } = r.deepened (depth + 1) := by
  have top : r.sp - UInt16.ofNat (2 * depth) - 2 = r.sp - UInt16.ofNat (2 * (depth + 1)) :=
    (Word.sub_ofNat_add r.sp (2 * depth) 2).symm
  unfold deepened
  rw [top]

/-- A pop comes back by one word. -/
lemma Registers.deepened_pop (r : Registers) (depth : Nat) :
    { r.deepened (depth + 1) with sp := (r.deepened (depth + 1)).sp + 2 } = r.deepened depth := by
  rw [← deepened_push]
  unfold deepened
  rw [UInt16.sub_add_cancel]

namespace StackOperation

open Microprogram

/-- What the operation makes of a list of words, the top first: the word it takes, if it takes one,
and the list afterwards. There is nothing to take from an empty list. -/
def onList : StackOperation → List Word → Option (Option Word × List Word)
  | push value, stack => some (none, value :: stack)
  | pop, value :: rest => some (some value, rest)
  | pop, [] => none

/-- What operations make of a list of words one after the other, told after each. -/
def allOnList : List StackOperation → List Word → Option (List (Option Word × List Word))
  | [], _ => some []
  | operation :: later, stack =>
    match operation.onList stack with
    | some told => (allOnList later told.2).map (told :: ·)
    | none => none

/-- The operation on the stack in memory: the word it takes, if it takes one, and the registers
afterwards. -/
def onBus (r : Registers) : StackOperation → Microprogram (Option Word × Registers)
  | push value => do
    let after ← r.push value
    return (none, after)
  | pop => do
    let (value, after) ← r.pop
    return (some value, after)

/-- Operations on the stack in memory one after the other, told after each. -/
def allOnBus (r : Registers) :
    List StackOperation → Microprogram (List (Option Word × Registers))
  | [] => return []
  | operation :: later => do
    let told ← operation.onBus r
    let rest ← allOnBus told.2 later
    return told :: rest

/-- A push completes on memory without a read-only region, and stores the word under the stack. -/
lemma completes_push {m : Ram} (unguarded : m.romSize = 0) (r : Registers) (value : Word) :
    ((push value).onBus r).Completes m (none, { r with sp := r.sp - 2 })
      { m with memory :=
        (m.memory.set (r.sp - 2) value.low).set (r.sp - 2 + 1) value.high }
      [.access (.write (r.sp - 2) value.low), .access (.write (r.sp - 2 + 1) value.high)] := by
  have free := Ram.write_unguarded unguarded
  show (Microprogram.write r (r.sp - 2) value.low (.write r (r.sp - 2 + 1) value.high
    (.done (none, { r with sp := r.sp - 2 })))).Completes ..
  exact Completes.write (free _ value.low m.memory) (.write (free _ value.high _) rfl)

/-- A pop completes on memory, and takes the word that the stack begins with. -/
lemma completes_pop {m : Ram} {r : Registers} {value : Word} {rest : List Word}
    (held : m.Holds r.sp (Word.toBytes (value :: rest))) :
    (pop.onBus r).Completes m (some value, { r with sp := r.sp + 2 }) m
      [.access (.read r.sp value.low), .access (.read (r.sp + 1) value.high)] := by
  obtain ⟨low, high, -⟩ := held
  show (Microprogram.read r r.sp fun low => .read r (r.sp + 1) fun high =>
    .done (some (Word.ofHalves high low), { r with sp := r.sp + 2 })).Completes ..
  have readLow : Bus.read m r.sp = (.ok value.low, m) :=
    congrArg (fun byte => (Except.ok byte, m)) low
  have readHigh : Bus.read m (r.sp + 1) = (.ok value.high, m) :=
    congrArg (fun byte => (Except.ok byte, m)) high
  apply Completes.read readLow
  apply Completes.read readHigh
  rw [Word.ofHalves_high_low]
  rfl

/-- The word that was pushed stands in memory on top of the words that stood there. -/
lemma holds_push {m : Ram} {top : Word} {stack : List Word} (value : Word)
    (held : m.Holds top (Word.toBytes stack)) (fits : stack.length + 1 ≤ 32768) :
    ({ m with memory :=
        (m.memory.set (top - 2) value.low).set (top - 2 + 1) value.high } : Ram).Holds (top - 2)
      (Word.toBytes (value :: stack)) := by
  have next : top - 2 + 1 = top - 1 := by grind
  have past : top - 2 + 1 + 1 = top := by grind
  have room : (Word.toBytes stack).length ≤ 65534 := by
    rw [Word.length_toBytes]
    omega
  -- The two bytes are next to the old top, and a stack that fits does not reach round to them.
  refine ⟨?_, ?_, ?_⟩
  · rw [Ram.peek_set (m := { m with memory := m.memory.set (top - 2) value.low }),
      if_neg (Word.ne_add_one _), Ram.peek_set, if_pos rfl]
  · rw [Ram.peek_set (m := { m with memory := m.memory.set (top - 2) value.low }), if_pos rfl]
  · rw [past, next]
    apply Ram.Holds.set (m := { m with memory := m.memory.set (top - 2) value.low })
    · apply held.set
      exact Word.not_within_above room (.inr rfl)
    · exact Word.not_within_above room (.inl rfl)

/-- One operation keeps memory and the list together: what the list tells, it tells, and where the
stack of the list ends, the stack pointer stands. What it stores is in the stack afterwards. -/
lemma completes_onBus {m : Ram} {base : Registers} {stack : List Word}
    {operation : StackOperation} {told : Option Word × List Word} (unguarded : m.romSize = 0)
    (held : m.Holds (base.deepened stack.length).sp (Word.toBytes stack))
    (runs : operation.onList stack = some told) (fits : told.2.length ≤ 32768) :
    ∃ after t, (operation.onBus (base.deepened stack.length)).Completes m
        (told.1, base.deepened told.2.length) after t ∧
      after.romSize = 0 ∧
      after.Holds (base.deepened told.2.length).sp (Word.toBytes told.2) ∧
      ∀ address, Access.WritesTo address t.accesses →
        ∃ depth, 0 < depth ∧ depth ≤ 2 * told.2.length ∧
          address = base.sp - UInt16.ofNat depth := by
  cases operation with
  | push value =>
    cases runs
    have completes := completes_push unguarded (base.deepened stack.length) value
    have holds := holds_push value held fits
    have top : (base.deepened stack.length).sp - 2 = (base.deepened (stack.length + 1)).sp :=
      congrArg Registers.sp (base.deepened_push stack.length)
    have high : (base.deepened (stack.length + 1)).sp + 1 =
        base.sp - UInt16.ofNat (2 * stack.length + 1) := by
      show base.sp - UInt16.ofNat (2 * stack.length + 1 + 1) + 1 = _
      rw [Word.sub_ofNat_add base.sp _ 1]
      exact UInt16.sub_add_cancel _ 1
    rw [base.deepened_push, top] at completes
    rw [top] at holds
    refine ⟨_, _, completes, unguarded, holds, ?_⟩
    intro address ⟨byte, written⟩
    obtain same | other := List.mem_cons.mp written
    · cases same
      exact ⟨2 * (stack.length + 1), Nat.succ_pos _, Nat.le_refl _, rfl⟩
    · cases List.mem_singleton.mp other
      exact ⟨2 * stack.length + 1, Nat.succ_pos _, Nat.le_succ _, high⟩
  | pop =>
    cases stack with
    | nil => cases runs
    | cons value rest =>
      cases runs
      have completes := completes_pop held
      have under : (base.deepened (rest.length + 1)).sp + 1 + 1 = (base.deepened rest.length).sp := by
        rw [← base.deepened_pop rest.length]
        exact UInt16.add_assoc _ 1 1
      -- A pop stores nothing, and the words under it stand where they stood.
      obtain ⟨-, -, holds⟩ := held
      rw [List.length_cons, base.deepened_pop] at completes
      rw [List.length_cons, under] at holds
      refine ⟨m, _, completes, unguarded, holds, ?_⟩
      intro address ⟨byte, written⟩
      obtain same | other := List.mem_cons.mp written
      · cases same
      · cases List.mem_singleton.mp other

/-- Operations one after the other keep memory and the list together, and store nothing under the
deepest that the stack was. -/
lemma completes_allOnBus {m : Ram} {base : Registers} {stack : List Word} {peak : Nat}
    {operations : List StackOperation} {expected : List (Option Word × List Word)}
    (unguarded : m.romSize = 0)
    (held : m.Holds (base.deepened stack.length).sp (Word.toBytes stack))
    (runs : allOnList operations stack = some expected)
    (bounded : ∀ told ∈ expected, told.2.length ≤ peak) (fits : peak ≤ 32768) :
    ∃ after t, (allOnBus (base.deepened stack.length) operations).Completes m
        (expected.map fun told => (told.1, base.deepened told.2.length)) after t ∧
      ∀ address, Access.WritesTo address t.accesses →
        (base.sp - UInt16.ofNat (2 * peak)).Within (2 * peak) address := by
  -- Memory and the list change together, so both are arbitrary in the induction.
  induction operations generalizing m stack expected with
  | nil =>
    cases runs
    refine ⟨m, [], rfl, ?_⟩
    intro address written
    exact absurd written (Access.not_writesTo_nil address)
  | cons operation later ih =>
    unfold allOnList at runs
    split at runs
    case h_2 => cases runs
    case h_1 told here =>
      obtain ⟨rest, runs', rfl⟩ := Option.map_eq_some_iff.mp runs
      obtain ⟨shallow, bounded'⟩ := List.forall_mem_cons.mp bounded
      obtain ⟨middle, t₁, first, unguarded', held', stored⟩ :=
        completes_onBus unguarded held here (Nat.le_trans shallow fits)
      obtain ⟨after, t₂, second, stored'⟩ := ih unguarded' held' runs' bounded'
      refine ⟨after, t₁ ++ (t₂ ++ []), first.bind (second.bind rfl), ?_⟩
      intro address ⟨byte, written⟩
      rw [List.append_nil, Trace.accesses_append] at written
      obtain now | then' := List.mem_append.mp written
      · obtain ⟨depth, some, most, rfl⟩ := stored address ⟨byte, now⟩
        exact Word.within_below some (by omega) (by omega)
      · exact stored' address ⟨byte, then'⟩

/-- The most words that there were after any of the operations. -/
def deepest : List (Option Word × List Word) → Nat
  | [] => 0
  | told :: later => max told.2.length (deepest later)

/-- The stack is never deeper than at its deepest. -/
lemma length_le_deepest {told : Option Word × List Word} {all : List (Option Word × List Word)}
    (h : told ∈ all) : told.2.length ≤ deepest all := by
  induction h with
  | head later => exact Nat.le_max_left _ _
  | tail other _ ih => exact Nat.le_trans ih (Nat.le_max_right _ _)

/-- Pushes and pops in any order do on memory without a read-only region what they do to a list that
is empty at first, if they take nothing from an empty list and the stack never has more words than
memory has room for. After each operation the word that it took is the word that the list tells, and
of the registers only the stack pointer has changed, by two for each word on the list. Nothing was
stored outside of what the stack took up at its deepest, and nothing has changed there. -/
theorem stack_lifo (m : Ram) (r : Registers) (unguarded : m.romSize = 0)
    {operations : List StackOperation} {expected : List (Option Word × List Word)}
    (runs : allOnList operations [] = some expected) (fits : deepest expected ≤ 32768) :
    ∃ after t, (allOnBus r operations).Completes m
        (expected.map fun told =>
          (told.1, { r with sp := r.sp - UInt16.ofNat (2 * told.2.length) })) after t ∧
      ∀ address, ¬ (r.sp - UInt16.ofNat (2 * deepest expected)).Within (2 * deepest expected) address →
        ¬ Access.WritesTo address t.accesses ∧ after.peek address = m.peek address := by
  have start : r.deepened 0 = r := by
    unfold Registers.deepened
    rw [Nat.mul_zero]
    exact congrArg (fun sp => { r with sp }) (UInt16.sub_zero r.sp)
  have held : m.Holds (r.deepened ([] : List Word).length).sp (Word.toBytes []) := trivial
  obtain ⟨after, t, completes, stored⟩ :=
    completes_allOnBus unguarded held runs (fun told => length_le_deepest) fits
  rw [List.length_nil, start] at completes
  refine ⟨after, t, completes, ?_⟩
  intro address outside
  have unwritten : ¬ Access.WritesTo address t.accesses := fun h => outside (stored address h)
  refine ⟨unwritten, ?_⟩
  have left : after = m.stored t.accesses := by
    have run := bus_run (allOnBus r operations) m
    rw [completes] at run
    exact run
  rw [left]
  exact Ram.peek_stored unwritten

/-- A stack that begins at the second address of memory goes over the end of memory. -/
theorem stack_lifo_wrapping :
    ({} : Ram).romSize = 0 ∧
      ∃ after t, (allOnBus { sp := 1 } [push 0x1234, push 0xABCD, pop, pop]).Completes ({} : Ram)
          [(none, { sp := 0xFFFF }), (none, { sp := 0xFFFD }), (some 0xABCD, { sp := 0xFFFF }),
            (some 0x1234, { sp := 1 })] after t ∧
        ∀ address, ¬ Word.Within 0xFFFD 4 address →
          ¬ Access.WritesTo address t.accesses ∧
            after.peek address = ({} : Ram).peek address := by
  have runs : allOnList [push 0x1234, push 0xABCD, pop, pop] [] =
      some [(none, [0x1234]), (none, [0xABCD, 0x1234]), (some 0xABCD, [0x1234]),
        (some 0x1234, [])] := rfl
  exact ⟨rfl, stack_lifo {} { sp := 1 } rfl runs (by decide)⟩

end StackOperation

end Z80
