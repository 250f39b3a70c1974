import Z80.Instruction.Basic

/-!
# Cycle costs

What an instruction or an interrupt entry costs in clock cycles. Costs are grouped by what the
processor does; a conditional instruction has one cost when its branch is taken and another when it
is not.

Main statement: every instruction costs at least four cycles and at most nineteen
(`Instruction.cycles_bounds`), so a processor that runs instructions makes progress, in steps that are
not too long.
-/

namespace Z80

/-- A group of things that cost the same for the same reason. -/
inductive Cost where
  | nop
  | loadRegister
  | loadImmediate
  | loadIndirect
  | storeImmediateIndirect
  | loadAbsolute
  | loadPairImmediate
  | loadPairAbsolute
  | loadStackPointer
  | loadInterruptVector
  | incDecRegister
  | incDecIndirect
  | incDecPair
  | aluRegister
  | aluMemory
  | addPair
  | adcSbcPair
  | accumulator
  | negate
  | exchange
  | exchangeStack
  | jump
  | jumpIndirect
  | relativeTaken
  | relativeNotTaken
  | djnzTaken
  | djnzNotTaken
  | call
  | callNotTaken
  | ret
  | retConditionalTaken
  | retConditionalNotTaken
  | returnFromInterrupt
  | restart
  | push
  | pop
  | interruptEnable
  | interruptModeSelect
  | nmiEntry
  | mode0Overhead
  | mode1Entry
  | mode2Entry
  deriving DecidableEq, Repr

namespace Cost

/-- All costs, in the order they are listed in. -/
def table : List Cost :=
  [nop, loadRegister, loadImmediate, loadIndirect, storeImmediateIndirect, loadAbsolute,
    loadPairImmediate, loadPairAbsolute, loadStackPointer, loadInterruptVector, incDecRegister,
    incDecIndirect, incDecPair, aluRegister, aluMemory, addPair, adcSbcPair, accumulator, negate,
    exchange, exchangeStack, jump, jumpIndirect, relativeTaken, relativeNotTaken, djnzTaken,
    djnzNotTaken, call, callNotTaken, ret, retConditionalTaken, retConditionalNotTaken,
    returnFromInterrupt, restart, push, pop, interruptEnable, interruptModeSelect, nmiEntry,
    mode0Overhead, mode1Entry, mode2Entry]

/-- The clock cycles of each cost. -/
def cycles : Cost → Nat
  | mode0Overhead => 2
  | nop | loadRegister | incDecRegister | aluRegister | accumulator | exchange | jumpIndirect
  | interruptEnable => 4
  | retConditionalNotTaken => 5
  | loadStackPointer | incDecPair => 6
  | loadImmediate | loadIndirect | aluMemory | relativeNotTaken => 7
  | negate | djnzNotTaken | interruptModeSelect => 8
  | loadInterruptVector => 9
  | storeImmediateIndirect | loadPairImmediate | jump | callNotTaken | ret | pop => 10
  | incDecIndirect | addPair | retConditionalTaken | restart | push | nmiEntry => 11
  | relativeTaken => 12
  | loadAbsolute | djnzTaken | mode1Entry => 13
  | returnFromInterrupt => 14
  | adcSbcPair => 15
  | loadPairAbsolute => 16
  | call => 17
  | exchangeStack | mode2Entry => 19

/-- The table holds every cost. -/
theorem mem_table (c : Cost) : c ∈ table := by
  cases c <;> decide

/-- No cost is more than 19 cycles. -/
theorem cycles_le (c : Cost) : c.cycles ≤ 19 := by
  cases c <;> decide

end Cost

/-- The cost of a byte load: an address in the encoding outweighs an address in a register, and that
outweighs a byte in the encoding. -/
def ByteTarget.loadCost : ByteTarget → ByteSource → Cost
  | .absolute, _ | _, .absolute => .loadAbsolute
  | .indirect _, .immediate => .storeImmediateIndirect
  | .indirect _, _ | _, .indirect _ => .loadIndirect
  | .register _, .immediate => .loadImmediate
  | .register _, .register _ => .loadRegister

def WordTarget.loadCost : WordTarget → WordSource → Cost
  | .register .sp, .register _ => .loadStackPointer
  | .register _, .immediate => .loadPairImmediate
  | _, _ => .loadPairAbsolute

namespace Instruction

/-- The cost when the branch is taken, for an instruction that has one, and the only cost of every
other instruction. -/
def costTaken : Instruction → Cost
  | nop | halt | illegal _ _ => .nop
  | loadByte target source => ByteTarget.loadCost target source
  | loadWord target source => WordTarget.loadCost target source
  | incByte target | decByte target =>
    if target.isMemory then .incDecIndirect else .incDecRegister
  | incWord _ | decWord _ => .incDecPair
  | alu _ source => if source.isMemory then .aluMemory else .aluRegister
  | addHl _ => .addPair
  | adcHl _ | sbcHl _ => .adcSbcPair
  | rotate _ | cpl | scf | ccf => .accumulator
  | neg => .negate
  | exchange _ => .exchange
  | exchangeTop => .exchangeStack
  | jump _ => .jump
  | jumpHl => .jumpIndirect
  | jumpRelative _ => .relativeTaken
  | djnz => .djnzTaken
  | call _ => .call
  | ret none => .ret
  | ret (some _) => .retConditionalTaken
  | retn | reti => .returnFromInterrupt
  | rst _ => .restart
  | push _ => .push
  | pop _ => .pop
  | di | ei => .interruptEnable
  | im _ => .interruptModeSelect
  | loadIA | loadAI => .loadInterruptVector

/-- The cost of an instruction whose condition is not met. -/
def costNotTaken : Instruction → Cost
  | jumpRelative _ => .relativeNotTaken
  | djnz => .djnzNotTaken
  | call _ => .callNotTaken
  | ret _ => .retConditionalNotTaken
  | other => other.costTaken

/-- Clock cycles of an instruction whose branch was taken or not. -/
def cycles (i : Instruction) (taken : Bool) : Nat :=
  (if taken then i.costTaken else i.costNotTaken).cycles

/-- A load of a byte takes at least the four cycles of its opcode. -/
theorem four_le_byteLoad (target : ByteTarget) (source : ByteSource) :
    4 ≤ (ByteTarget.loadCost target source).cycles := by
  unfold ByteTarget.loadCost
  split <;> decide

/-- A load of a word takes at least the four cycles of its opcode. -/
theorem four_le_wordLoad (target : WordTarget) (source : WordSource) :
    4 ≤ (WordTarget.loadCost target source).cycles := by
  unfold WordTarget.loadCost
  split <;> decide

/-- An instruction that is carried out takes at least the four cycles of its opcode. -/
theorem four_le_costTaken (i : Instruction) : 4 ≤ i.costTaken.cycles := by
  cases i with
  | loadByte target source => exact four_le_byteLoad target source
  | loadWord target source => exact four_le_wordLoad target source
  | incByte target | decByte target =>
    simp only [costTaken]
    split <;> decide
  | alu _ source =>
    simp only [costTaken]
    split <;> decide
  | ret condition => cases condition <;> exact Nat.le_of_ble_eq_true rfl
  | _ => exact Nat.le_of_ble_eq_true rfl

/-- An instruction takes at least the four cycles of its opcode, its condition met or not. -/
theorem four_le_cycles (i : Instruction) (taken : Bool) : 4 ≤ i.cycles taken := by
  cases taken
  · show 4 ≤ i.costNotTaken.cycles
    unfold costNotTaken
    split
    case h_5 => exact four_le_costTaken _
    all_goals decide
  · exact four_le_costTaken i

/-- What an instruction takes lies between 4 and 19 cycles. -/
theorem cycles_bounds (i : Instruction) (taken : Bool) : 4 ≤ i.cycles taken ∧ i.cycles taken ≤ 19 :=
  ⟨i.four_le_cycles taken, Cost.cycles_le _⟩

end Instruction

end Z80
