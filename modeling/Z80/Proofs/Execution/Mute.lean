import Z80.Execution.Instruction
import Z80.Proofs.Microprogram.Reports

/-!
# Instructions report nothing

Events and records are told around the work of an instruction, never while it is decoded or executed
(`Instruction.mute_decodeRest`, `Instruction.mute_execute`). The same is said of each part an
instruction is put together from: operands, pushes and pops.
-/

namespace Z80

open Microprogram

namespace Microprogram

/-- To read a byte reports nothing. -/
lemma mute_readByte (now : Registers) (address : Word) : (readByte now address).Mute :=
  fun _ => trivial

/-- To write a byte reports nothing. -/
lemma mute_writeByte (now : Registers) (address : Word) (value : Byte) :
    (writeByte now address value).Mute :=
  trivial

/-- To read a word reports nothing. -/
lemma mute_readWord (now : Registers) (address : Word) : (readWord now address).Mute := by
  apply (mute_readByte now address).bind
  intro low
  exact (mute_readByte now (address + 1)).bind_done

/-- To write a word reports nothing. -/
lemma mute_writeWord (now : Registers) (address value : Word) :
    (writeWord now address value).Mute := by
  apply (mute_writeByte now address value.low).bind
  intro _
  exact mute_writeByte now (address + 1) value.high

end Microprogram

/-- To read the address in the encoding reports nothing. -/
lemma Registers.mute_absoluteAddress (r : Registers) : r.absoluteAddress.Mute :=
  mute_readWord r r.operandAddress

/-- To read a byte from its source reports nothing. -/
lemma ByteSource.mute_read (s : ByteSource) (r : Registers) : (ByteSource.read s r).Mute := by
  cases s with
  | register name => exact trivial
  | immediate => exact mute_readByte r _
  | indirect pointer => exact mute_readByte r _
  | absolute => exact r.mute_absoluteAddress.bind fun address => mute_readByte r address

/-- To read a word from its source reports nothing. -/
lemma WordSource.mute_read (s : WordSource) (r : Registers) : (WordSource.read s r).Mute := by
  cases s with
  | register name => exact trivial
  | immediate => exact mute_readWord r _
  | indirect pointer => exact mute_readWord r _
  | absolute => exact r.mute_absoluteAddress.bind fun address => mute_readWord r address

/-- To write a byte to its target reports nothing. -/
lemma ByteTarget.mute_write (t : ByteTarget) (r : Registers) (value : Byte) :
    (ByteTarget.write t r value).Mute := by
  cases t with
  | register name => exact trivial
  | indirect pointer => exact (mute_writeByte r _ value).bind_done
  | absolute =>
    apply r.mute_absoluteAddress.bind
    intro address
    exact (mute_writeByte r address value).bind_done

/-- To write a word to its target reports nothing. -/
lemma WordTarget.mute_write (t : WordTarget) (r : Registers) (value : Word) :
    (WordTarget.write t r value).Mute := by
  cases t with
  | register name => exact trivial
  | indirect pointer => exact (mute_writeWord r _ value).bind_done
  | absolute =>
    apply r.mute_absoluteAddress.bind
    intro address
    exact (mute_writeWord r address value).bind_done

namespace Registers

/-- A push reports nothing. -/
lemma mute_push (r : Registers) (value : Word) : (r.push value).Mute :=
  (mute_writeWord r _ value).bind_done

/-- A pop reports nothing. -/
lemma mute_pop (r : Registers) : r.pop.Mute := (mute_readWord r r.sp).bind_done

/-- A call reports nothing. -/
lemma mute_callTo (r : Registers) (target : Word) : (r.callTo target).Mute :=
  (r.mute_push r.pc).bind_done

/-- To read a displacement reports nothing. -/
lemma mute_relativeTarget (r : Registers) (following : Word) :
    (r.relativeTarget following).Mute :=
  (ByteSource.mute_read .immediate r).bind_done

end Registers

namespace Instruction

/-- What an instruction does to its operands is not reported. -/
lemma mute_body (i : Instruction) (r : Registers) (following : Word) :
    (i.body r following).Mute := by
  cases i with
  | loadByte target source =>
    apply (ByteSource.mute_read source r).bind
    intro value
    exact (ByteTarget.mute_write target r value).bind_done
  | loadWord target source =>
    apply (WordSource.mute_read source r).bind
    intro value
    exact (WordTarget.mute_write target r value).bind_done
  | incByte target | decByte target =>
    apply (ByteSource.mute_read target.toSource r).bind
    intro value
    exact (ByteTarget.mute_write target r _).bind_done
  | alu operation source => exact (ByteSource.mute_read source r).bind_done
  | exchangeTop =>
    apply (WordSource.mute_read (.indirect .sp) r).bind
    intro top
    exact (WordTarget.mute_write (.indirect .sp) r r.hl).bind_done
  | jump condition => exact (WordSource.mute_read .immediate r).bind_done
  | jumpRelative condition | djnz => exact (r.mute_relativeTarget following).bind_done
  | call condition =>
    apply (WordSource.mute_read .immediate r).bind
    intro target
    split
    case isTrue => exact (r.mute_push following).bind_done
    case isFalse => exact trivial
  | ret condition =>
    simp only [body]
    split
    case isTrue => exact r.mute_pop.bind_done
    case isFalse => exact trivial
  | retn | reti | pop _ => exact r.mute_pop.bind_done
  | rst target => exact (r.mute_push following).bind_done
  | push name => exact (r.mute_push _).bind_done
  | _ => exact trivial

/-- An instruction is carried out without a report, whichever it is. -/
theorem mute_execute (i : Instruction) (r : Registers) : (i.execute r).Mute :=
  (i.mute_body r _).bind_done

/-- What is left of an opcode is decoded without a report. -/
theorem mute_decodeRest (now : Registers) (pc : Word) (opcode : Byte) :
    (decodeRest now pc opcode).Mute := by
  unfold decodeRest
  split
  case isTrue => exact (mute_readByte now (pc + 1)).bind_done
  case isFalse => exact trivial

end Instruction

end Z80
