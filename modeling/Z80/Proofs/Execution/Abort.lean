import Mathlib.Tactic.Lemma
import Z80.Execution.Instruction

/-!
# Instructions that stop short

An instruction changes registers between and after its accesses on the bus. The accesses of every
instruction come first, so wherever it stops short the registers are still the ones it began with, and
none of the accesses is an acknowledge cycle (`Instruction.stops_execute`). An instruction with a
meaning stops short at a read or a write only (`Instruction.stops_execute_of_legal`). The same is said
of each part an instruction is put together from: operands, pushes and pops.
-/

namespace Z80

/-- The registers are still as they were, and the access is not an acknowledge cycle. -/
def Registers.Untouched (r now : Registers) (request : Option Request) : Prop :=
  now = r ∧ request ≠ some .acknowledge

/-- The registers are still as they were, and a byte was to be read or written. -/
def Registers.Accessing (r now : Registers) (request : Option Request) : Prop :=
  now = r ∧ request ≠ some .acknowledge ∧ request ≠ none

namespace Microprogram

variable {α : Type}

/-- Work that stops short only at an access to memory leaves the registers as they were. -/
lemma Stops.untouched {r : Registers} {p : Microprogram α} (hp : p.Stops r.Accessing) :
    p.Stops r.Untouched :=
  hp.imp fun _ _ h => ⟨h.1, h.2.1⟩

/-- To read a byte stops short with the registers as they are. -/
lemma stops_readByte (now : Registers) (address : Word) :
    (readByte now address).Stops now.Accessing :=
  ⟨⟨rfl, nofun, nofun⟩, fun _ => trivial⟩

/-- To write a byte stops short with the registers as they are. -/
lemma stops_writeByte (now : Registers) (address : Word) (value : Byte) :
    (writeByte now address value).Stops now.Accessing :=
  ⟨⟨rfl, nofun, nofun⟩, trivial⟩

/-- To read a word stops short with the registers as they are. -/
lemma stops_readWord (now : Registers) (address : Word) :
    (readWord now address).Stops now.Accessing := by
  apply Stops.bind (stops_readByte now address)
  intro low
  apply Stops.bind (stops_readByte now (address + 1))
  intro high
  exact trivial

/-- To write a word stops short with the registers as they are. -/
lemma stops_writeWord (now : Registers) (address value : Word) :
    (writeWord now address value).Stops now.Accessing := by
  apply Stops.bind (stops_writeByte now address value.low)
  intro _
  exact stops_writeByte now (address + 1) value.high

/-- To write records to the log never stops short. -/
lemma stops_tellRecords (P : Registers → Option Request → Prop) (records : List Record) :
    (tellRecords records).Stops P := by
  induction records with
  | nil => exact trivial
  | cons r rest ih => exact ih

/-- A microprogram that goes on without an access stops short where its first part does. -/
lemma Stops.bind_done {γ : Type} {P : Registers → Option Request → Prop} {p : Microprogram α}
    {f : α → γ} (hp : p.Stops P) : (p.bind fun value => .done (f value)).Stops P :=
  hp.bind fun _ => trivial

end Microprogram

open Microprogram

/-- To read the address in the encoding stops short with the registers as they are. -/
lemma Registers.stops_absoluteAddress (r : Registers) : r.absoluteAddress.Stops r.Accessing :=
  stops_readWord r r.operandAddress

/-- To read a byte from its source stops short with the registers as they are. -/
lemma ByteSource.stops_read (s : ByteSource) (r : Registers) :
    (ByteSource.read s r).Stops r.Accessing := by
  cases s with
  | register name => exact trivial
  | immediate => exact stops_readByte r _
  | indirect pointer => exact stops_readByte r _
  | absolute => exact r.stops_absoluteAddress.bind fun address => stops_readByte r address

/-- To read a word from its source stops short with the registers as they are. -/
lemma WordSource.stops_read (s : WordSource) (r : Registers) :
    (WordSource.read s r).Stops r.Accessing := by
  cases s with
  | register name => exact trivial
  | immediate => exact stops_readWord r _
  | indirect pointer => exact stops_readWord r _
  | absolute => exact r.stops_absoluteAddress.bind fun address => stops_readWord r address

/-- To write a byte to its target stops short with the registers as they are. -/
lemma ByteTarget.stops_write (t : ByteTarget) (r : Registers) (value : Byte) :
    (ByteTarget.write t r value).Stops r.Accessing := by
  cases t with
  | register name => exact trivial
  | indirect pointer => exact (stops_writeByte r _ value).bind_done
  | absolute =>
    apply r.stops_absoluteAddress.bind
    intro address
    exact (stops_writeByte r address value).bind_done

/-- To write a word to its target stops short with the registers as they are. -/
lemma WordTarget.stops_write (t : WordTarget) (r : Registers) (value : Word) :
    (WordTarget.write t r value).Stops r.Accessing := by
  cases t with
  | register name => exact trivial
  | indirect pointer => exact (stops_writeWord r _ value).bind_done
  | absolute =>
    apply r.stops_absoluteAddress.bind
    intro address
    exact (stops_writeWord r address value).bind_done

namespace Registers

/-- A push stops short with the registers as they are. -/
lemma stops_push (r : Registers) (value : Word) : (r.push value).Stops r.Accessing :=
  (stops_writeWord r _ value).bind_done

/-- A pop stops short with the registers as they are. -/
lemma stops_pop (r : Registers) : r.pop.Stops r.Accessing :=
  (stops_readWord r r.sp).bind_done

/-- A call stops short with the registers as they are. -/
lemma stops_callTo (r : Registers) (target : Word) : (r.callTo target).Stops r.Accessing :=
  (r.stops_push r.pc).bind_done

/-- To read a displacement stops short with the registers as they are. -/
lemma stops_relativeTarget (r : Registers) (following : Word) :
    (r.relativeTarget following).Stops r.Accessing :=
  (ByteSource.stops_read .immediate r).bind_done

end Registers

namespace Instruction

/-- Wherever the body of an instruction with a meaning stops short, it is at an access, and no
register has changed. -/
lemma stops_body {i : Instruction} (legal : i.isIllegal = false) (r : Registers)
    (following : Word) : (i.body r following).Stops r.Accessing := by
  cases i with
  | illegal page opcode => cases legal
  | loadByte target source =>
    apply (ByteSource.stops_read source r).bind
    intro value
    exact (ByteTarget.stops_write target r value).bind_done
  | loadWord target source =>
    apply (WordSource.stops_read source r).bind
    intro value
    exact (WordTarget.stops_write target r value).bind_done
  | incByte target | decByte target =>
    apply (ByteSource.stops_read target.toSource r).bind
    intro value
    exact (ByteTarget.stops_write target r _).bind_done
  | alu operation source => exact (ByteSource.stops_read source r).bind_done
  | exchangeTop =>
    apply (WordSource.stops_read (.indirect .sp) r).bind
    intro top
    exact (WordTarget.stops_write (.indirect .sp) r r.hl).bind_done
  | jump condition => exact (WordSource.stops_read .immediate r).bind_done
  | jumpRelative condition => exact (r.stops_relativeTarget following).bind_done
  | djnz => exact (r.stops_relativeTarget following).bind_done
  | call condition =>
    apply (WordSource.stops_read .immediate r).bind
    intro target
    -- The condition is looked at between the operand bytes and the push.
    split
    case isTrue => exact (r.stops_push following).bind_done
    case isFalse => exact trivial
  | ret condition =>
    simp only [body]
    split
    case isTrue => exact r.stops_pop.bind_done
    case isFalse => exact trivial
  | retn | reti => exact r.stops_pop.bind_done
  | rst target => exact (r.stops_push following).bind_done
  | push name => exact (r.stops_push _).bind_done
  | pop name => exact r.stops_pop.bind_done
  | _ => exact trivial

/-- An instruction that means something stops short only at an access to memory, with the registers
as they were. -/
lemma stops_execute_of_legal {i : Instruction} (legal : i.isIllegal = false) (r : Registers) :
    (i.execute r).Stops r.Accessing :=
  (stops_body legal r _).bind_done

/-- Wherever an instruction stops short, no register has changed. -/
theorem stops_execute (i : Instruction) (r : Registers) : (i.execute r).Stops r.Untouched := by
  cases legal : i.isIllegal with
  | false => exact (stops_execute_of_legal legal r).untouched
  | true =>
    cases i with
    | illegal page opcode => exact ⟨rfl, nofun⟩
    | _ => cases legal

/-- Nothing changes while an instruction is decoded. -/
lemma stops_decodeRest (now : Registers) (pc : Word) (opcode : Byte) :
    (decodeRest now pc opcode).Stops now.Accessing := by
  unfold decodeRest
  split
  case isTrue => exact (stops_readByte now (pc + 1)).bind_done
  case isFalse => exact trivial

end Instruction

end Z80
