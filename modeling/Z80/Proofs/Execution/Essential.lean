import Z80.Proofs.Microprogram.Alike
import Z80.Proofs.Register.Essential

/-!
# Flags that execution does not show

From register banks that agree but for flags that are not essential, an instruction does the same on
the bus and leaves banks that agree again, unless it asks for F or AF as a whole
(`Instruction.alike_execute`). Of the instructions that opcodes mean only `PUSH AF` does so
(`Instruction.showsFlags_ofOpcode`).
-/

namespace Z80

open Microprogram

/-- The flags are the value of the operand, or are in the address of its value. -/
def Source.showsFlags {ρ : Type} [BEq ρ] (flags : ρ) : Source ρ → Bool
  | register name => name == flags
  | indirect pointer => pointer == .af
  | _ => false

/-- The flags are in the address that is written to. -/
def Target.showsFlags {ρ : Type} : Target ρ → Bool
  | indirect pointer => pointer == .af
  | _ => false

/-- The same cycles and effect, and registers that agree. -/
structure Retirement.Agree (x y : Retirement) : Prop where
  registers : x.registers.Agree y.registers
  cycles : x.cycles = y.cycles
  effect : x.effect = y.effect

namespace Instruction

/-- The instruction computes with the flags as a whole. -/
def showsFlags : Instruction → Bool
  | loadByte target source => target.showsFlags || source.showsFlags .f
  | loadWord target source => target.showsFlags || source.showsFlags .af
  | incByte target | decByte target => target.showsFlags || target.toSource.showsFlags .f
  | alu _ source => source.showsFlags .f
  | incWord name | decWord name | addHl name | adcHl name | sbcHl name | push name => name == .af
  | _ => false

/-- Of the instructions of the first page only `PUSH AF` shows the flags. -/
lemma showsFlags_ofOpcode {opcode : Byte} (other : ofOpcode opcode ≠ push .af) :
    (ofOpcode opcode).showsFlags = false :=
  Byte.forall_of_lt (P := fun x => ofOpcode x ≠ push .af → (ofOpcode x).showsFlags = false)
    (by decide +kernel) opcode other

/-- No instruction of the extended page shows the flags. -/
lemma showsFlags_ofExtendedOpcode (opcode : Byte) :
    (ofExtendedOpcode opcode).showsFlags = false := by
  revert opcode
  exact Byte.forall_of_lt (by decide +kernel)

end Instruction

namespace Registers.Agree

variable {r r' : Registers} (h : r.Agree r')

include h

/-- Banks that agree read the same address from the encoding. -/
lemma absoluteAddress : r.absoluteAddress.Alike Eq r'.absoluteAddress := by
  rw [Registers.absoluteAddress, Registers.absoluteAddress, operandAddress, operandAddress, h.pc]
  exact .readWord r r' _

/-- Banks that agree push alike. -/
lemma push (value : Word) : (r.push value).Alike Agree (r'.push value) := by
  have sp : r.sp = r'.sp := h.same Registers.sp
  rw [Registers.push, Registers.push, sp]
  apply (Alike.writeWord r r' (r'.sp - 2) value).bind
  rintro _ _ -
  exact .done (h.writeWord .sp (r'.sp - 2))

/-- The same word taken from the top of the stack, and banks that agree. -/
lemma pop : r.pop.Alike (fun x y => x.1 = y.1 ∧ x.2.Agree y.2) r'.pop := by
  have sp : r.sp = r'.sp := h.same Registers.sp
  rw [Registers.pop, Registers.pop, sp]
  apply (Alike.readWord r r' r'.sp).bind
  rintro value _ rfl
  exact .done ⟨rfl, h.writeWord .sp (r'.sp + 2)⟩

/-- Banks that agree make the same call. -/
lemma callTo (target : Word) : (r.callTo target).Alike Agree (r'.callTo target) := by
  rw [Registers.callTo, Registers.callTo, h.pc]
  apply (h.push r'.pc).bind
  intro pushed pushed' agree
  exact .done (agree.writeWord .pc target)

/-- Banks that agree jump to the same place. -/
lemma relativeTarget (following : Word) :
    (r.relativeTarget following).Alike Eq (r'.relativeTarget following) := by
  rw [Registers.relativeTarget, Registers.relativeTarget, ByteSource.read, ByteSource.read,
    operandAddress, operandAddress, h.pc]
  apply (Alike.readByte r r' _).bind
  rintro displacement _ rfl
  exact .done rfl

end Registers.Agree

section Operand

variable {r r' : Registers} (h : r.Agree r')

include h

/-- Banks that agree read alike from a source of a byte that is not the flags. -/
lemma ByteSource.alike_read {s : ByteSource} (hidden : s.showsFlags .f = false) :
    (ByteSource.read s r).Alike Eq (ByteSource.read s r') := by
  cases s with
  | register name => exact .done (h.readByte (beq_eq_false_iff_ne.mp hidden))
  | immediate =>
    rw [read, read, Registers.operandAddress, Registers.operandAddress, h.pc]
    exact .readByte r r' _
  | indirect pointer =>
    rw [read, read, h.readWord (beq_eq_false_iff_ne.mp hidden)]
    exact .readByte r r' _
  | absolute =>
    apply h.absoluteAddress.bind
    rintro address _ rfl
    exact .readByte r r' address

/-- Banks that agree read alike from a source of a word that does not hold the flags. -/
lemma WordSource.alike_read {s : WordSource} (hidden : s.showsFlags .af = false) :
    (WordSource.read s r).Alike Eq (WordSource.read s r') := by
  cases s with
  | register name => exact .done (h.readWord (beq_eq_false_iff_ne.mp hidden))
  | immediate =>
    rw [read, read, Registers.operandAddress, Registers.operandAddress, h.pc]
    exact .readWord r r' _
  | indirect pointer =>
    rw [read, read, h.readWord (beq_eq_false_iff_ne.mp hidden)]
    exact .readWord r r' _
  | absolute =>
    apply h.absoluteAddress.bind
    rintro address _ rfl
    exact .readWord r r' address

/-- Banks that agree write alike to a target of a byte whose address does not depend on the
flags. -/
lemma ByteTarget.alike_write {t : ByteTarget} (hidden : t.showsFlags = false) (value : Byte) :
    (ByteTarget.write t r value).Alike Registers.Agree (ByteTarget.write t r' value) := by
  cases t with
  | register name => exact .done (h.writeByte name value)
  | indirect pointer =>
    rw [write, write, h.readWord (beq_eq_false_iff_ne.mp hidden)]
    exact .write (.done h)
  | absolute =>
    apply h.absoluteAddress.bind
    rintro address _ rfl
    exact .write (.done h)

/-- Banks that agree write alike to a target of a word whose address does not depend on the
flags. -/
lemma WordTarget.alike_write {t : WordTarget} (hidden : t.showsFlags = false) (value : Word) :
    (WordTarget.write t r value).Alike Registers.Agree (WordTarget.write t r' value) := by
  cases t with
  | register name => exact .done (h.writeWord name value)
  | indirect pointer =>
    rw [write, write, h.readWord (beq_eq_false_iff_ne.mp hidden)]
    exact .write (.write (.done h))
  | absolute =>
    apply h.absoluteAddress.bind
    rintro address _ rfl
    exact .write (.write (.done h))

end Operand

namespace Instruction

variable {r r' : Registers}

/-- An instruction that does not show the flags treats banks that agree alike. -/
lemma alike_body {i : Instruction} (hidden : i.showsFlags = false) (h : r.Agree r')
    (following : Word) :
    (i.body r following).Alike (fun x y => x.1.Agree y.1 ∧ x.2 = y.2) (i.body r' following) := by
  have pc := h.pc
  have hl : r.hl = r'.hl := h.same Registers.hl
  have i' : r.i = r'.i := h.same Registers.i
  have iff2 : r.iff2 = r'.iff2 := h.same Registers.iff2
  cases i with
  | illegal page opcode =>
    simp only [body, pc]
    exact .illegal
  | nop | im _ => exact .done ⟨h, rfl⟩
  | halt => exact .done ⟨h.update (fun x => { x with halted := true }) fun _ => rfl, rfl⟩
  -- Where neither operand shows the flags, the value is the same and goes to the same place.
  | loadByte target source =>
    obtain ⟨ht, hs⟩ := Bool.or_eq_false_iff.mp hidden
    apply (ByteSource.alike_read h hs).bind
    rintro value _ rfl
    apply (ByteTarget.alike_write h ht value).bind
    intro after after' agree
    exact .done ⟨agree, rfl⟩
  | loadWord target source =>
    obtain ⟨ht, hs⟩ := Bool.or_eq_false_iff.mp hidden
    apply (WordSource.alike_read h hs).bind
    rintro value _ rfl
    apply (WordTarget.alike_write h ht value).bind
    intro after after' agree
    exact .done ⟨agree, rfl⟩
  | incByte target | decByte target =>
    obtain ⟨ht, hs⟩ := Bool.or_eq_false_iff.mp hidden
    apply (ByteSource.alike_read h hs).bind
    rintro value _ rfl
    apply (ByteTarget.alike_write h ht _).bind
    intro after after' agree
    exact .done ⟨agree.updateFlags _, rfl⟩
  | incWord name | decWord name =>
    simp only [body, h.readWord (beq_eq_false_iff_ne.mp hidden)]
    exact .done ⟨h.writeWord name _, rfl⟩
  | alu operation source =>
    apply (ByteSource.alike_read h hidden).bind
    rintro value _ rfl
    simp only [Registers.alu, h.a, h.carry]
    exact .done ⟨h.settle _ _, rfl⟩
  | addHl name | adcHl name | sbcHl name =>
    simp only [body, Registers.addHl, Registers.adcHl, Registers.sbcHl, hl, h.carry,
      h.readWord (beq_eq_false_iff_ne.mp hidden)]
    exact .done ⟨(h.writeWord .hl _).updateFlags _, rfl⟩
  | rotate _ | cpl | scf | ccf | neg | loadAI =>
    simp only [body, Registers.rotate, Registers.complement, Registers.setCarry,
      Registers.complementCarry, Registers.negate, Registers.loadAI, h.a, h.carry, i', iff2]
    exact .done ⟨h.settle _ _, rfl⟩
  | exchange kind => exact .done ⟨h.exchange kind, rfl⟩
  | exchangeTop =>
    apply (WordSource.alike_read h (s := .indirect .sp) rfl).bind
    rintro top _ rfl
    rw [hl]
    apply (WordTarget.alike_write h (t := .indirect .sp) rfl r'.hl).bind
    intro after after' agree
    exact .done ⟨agree.writeWord .hl top, rfl⟩
  | jump condition =>
    apply (WordSource.alike_read h (s := .immediate) rfl).bind
    rintro target _ rfl
    rw [h.meets condition]
    exact .done ⟨h, rfl⟩
  | jumpHl =>
    simp only [body, hl]
    exact .done ⟨h, rfl⟩
  | jumpRelative condition =>
    apply (h.relativeTarget following).bind
    rintro target _ rfl
    rw [h.meets condition]
    exact .done ⟨h, rfl⟩
  | djnz =>
    apply (h.relativeTarget following).bind
    rintro target _ rfl
    rw [h.readByte (by decide : ByteRegister.b ≠ .f)]
    exact .done ⟨h.writeByte .b _, rfl⟩
  | call condition =>
    apply (WordSource.alike_read h (s := .immediate) rfl).bind
    rintro target _ rfl
    rw [h.meets condition]
    split
    case isTrue =>
      apply (h.push following).bind
      intro after after' agree
      exact .done ⟨agree, rfl⟩
    case isFalse => exact .done ⟨h, rfl⟩
  | ret condition =>
    simp only [body, h.meets condition]
    split
    case isTrue =>
      apply h.pop.bind
      rintro ⟨target, popped⟩ ⟨_, popped'⟩ ⟨rfl, agree⟩
      exact .done ⟨agree, rfl⟩
    case isFalse => exact .done ⟨h, rfl⟩
  | retn | reti =>
    apply h.pop.bind
    rintro ⟨target, popped⟩ ⟨_, popped'⟩ ⟨rfl, agree⟩
    exact .done ⟨agree.update (fun x => { x with iff1 := x.iff2 }) fun _ => rfl, rfl⟩
  | rst target =>
    apply (h.push following).bind
    intro after after' agree
    exact .done ⟨agree, rfl⟩
  | push name =>
    simp only [body, h.readWord (beq_eq_false_iff_ne.mp hidden)]
    apply (h.push _).bind
    intro after after' agree
    exact .done ⟨agree, rfl⟩
  | pop name =>
    apply h.pop.bind
    rintro ⟨value, popped⟩ ⟨_, popped'⟩ ⟨rfl, agree⟩
    exact .done ⟨agree.writeWord name value, rfl⟩
  | di => exact .done ⟨h.update (fun x => x.withInterruptsEnabled false) fun _ => rfl, rfl⟩
  | ei =>
    have enabled := h.update (fun x => { x.withInterruptsEnabled true with eiExecuted := true })
      fun _ => rfl
    exact .done ⟨enabled, rfl⟩
  | loadIA =>
    simp only [body, h.a]
    exact .done ⟨h.update (fun x => { x with i := r'.a }) fun _ => rfl, rfl⟩

/-- An instruction that does not show the flags does the same from banks that agree. -/
theorem alike_execute {i : Instruction} (hidden : i.showsFlags = false) (h : r.Agree r') :
    (i.execute r).Alike Retirement.Agree (i.execute r') := by
  rw [execute, execute, h.pc]
  apply (alike_body hidden h _).bind
  rintro ⟨after, flow⟩ ⟨after', _⟩ ⟨agree, rfl⟩
  exact .done ⟨agree.writeWord .pc _, rfl, rfl⟩

/-- The same instruction is decoded, and one that does not show the flags if the opcode does not
mean `PUSH AF`. -/
lemma alike_decodeRest (now now' : Registers) (pc : Word) {opcode : Byte}
    (other : ofOpcode opcode ≠ push .af) :
    (decodeRest now pc opcode).Alike (fun i j => i = j ∧ i.showsFlags = false)
      (decodeRest now' pc opcode) := by
  unfold decodeRest
  split
  case isTrue =>
    apply (Alike.readByte now now' (pc + 1)).bind
    rintro extended _ rfl
    exact .done ⟨rfl, showsFlags_ofExtendedOpcode extended⟩
  case isFalse => exact .done ⟨rfl, showsFlags_ofOpcode other⟩

end Instruction

end Z80
