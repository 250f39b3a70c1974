import Z80.Execution.Operand

/-!
# The stack

The stack grows towards lower addresses and holds words. The stack pointer moves once a word has
been stored or read completely.
-/

namespace Z80.Registers

/-- Stores a word under the top of the stack and makes it the top. -/
def push (r : Registers) (value : Word) : Microprogram Registers := do
  let top := r.sp - 2
  .writeWord r top value
  return { r with sp := top }

/-- Takes the word on top of the stack. -/
def pop (r : Registers) : Microprogram (Word × Registers) := do
  let value ← .readWord r r.sp
  return (value, { r with sp := r.sp + 2 })

/-- Pushes the program counter and goes to an address. -/
def callTo (r : Registers) (target : Word) : Microprogram Registers := do
  let pushed ← r.push r.pc
  return { pushed with pc := target }

end Z80.Registers
