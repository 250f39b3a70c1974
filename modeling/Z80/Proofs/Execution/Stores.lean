import Z80.Proofs.Execution.Phases
import Z80.Proofs.Microprogram.Placed
import Z80.Proofs.Microprogram.Stores

/-!
# Where an instruction stores

The addresses that an instruction stores to are known from its registers and from the word that
follows its opcode (`Instruction.storesAt`), whatever it reads on the way
(`Instruction.stores_execute`). On memory that decides whether it completes, for an instruction that
stands in memory (`Instruction.fault_execute`) and for one that is supplied
(`Instruction.fault_withSupplied`).
-/

namespace Z80

/-- The addresses of a word, the low byte first. -/
def Word.both (address : Word) : List Word := [address, address + 1]

namespace Instruction

open Microprogram

/-- The addresses of the bytes that the instruction stores, in order, when the word follows its
opcode. -/
def storesAt (i : Instruction) (r : Registers) (operand : Word) : List Word :=
  match i with
  | loadByte (.indirect pointer) _ | incByte (.indirect pointer) | decByte (.indirect pointer) =>
    [r.readWord pointer]
  | loadByte .absolute _ | incByte .absolute | decByte .absolute => [operand]
  | loadWord (.indirect pointer) _ => (r.readWord pointer).both
  | loadWord .absolute _ => operand.both
  | exchangeTop => r.sp.both
  | push _ | rst _ => (r.sp - 2).both
  | call condition => if r.meets condition then (r.sp - 2).both else []
  | _ => []

end Instruction

/-- Two bytes from an address on are held, or as many of them as are asked for. -/
lemma Ram.holds_take (m : Ram) (first : Word) (n : Nat) :
    m.Holds first ([m.peek first, m.peek (first + 1)].take n) := by
  cases n with
  | zero => exact trivial
  | succ n =>
    cases n with
    | zero => exact ⟨rfl, trivial⟩
    | succ n =>
      rw [List.take_of_length_le (Nat.le_add_left 2 n)]
      exact ⟨rfl, rfl, trivial⟩

namespace Microprogram

/-- A word is stored in two bytes. -/
lemma stores_writeWord (now : Registers) (address value : Word) :
    (writeWord now address value).Stores address.both :=
  ⟨[address + 1], rfl, [], rfl, rfl⟩

end Microprogram

namespace Registers

open Microprogram

/-- A push stores below the stack pointer. -/
lemma stores_push (r : Registers) (value : Word) : (r.push value).Stores (r.sp - 2).both :=
  (stores_writeWord r (r.sp - 2) value).bind_nothing fun _ => rfl

/-- A call stores below the stack pointer. -/
lemma stores_callTo (r : Registers) (target : Word) : (r.callTo target).Stores (r.sp - 2).both :=
  (r.stores_push r.pc).bind_nothing fun _ => rfl

end Registers

namespace Instruction

open Microprogram

/-- Once its operand bytes are known, an instruction with a meaning stores to the addresses that it
should. -/
theorem stores_execute {i : Instruction} (legal : i.isIllegal = false)
    (encodable : i.isEncodable = true) (r : Registers) (low high : Byte) :
    ((i.execute r).answered ([low, high].take i.operandBytes)).Stores
      (i.storesAt r (.ofHalves high low)) := by
  cases i with
  | illegal page opcode => cases legal
  | loadByte target source =>
    cases target with
    | register name =>
      -- The address that is stored to is told by the target, the reads before it by the source.
      cases source with
      | register _ => exact rfl
      | immediate => exact rfl
      | indirect _ => exact fun _ => rfl
      | absolute => exact fun _ => rfl
    | indirect pointer =>
      cases source with
      | register _ => exact ⟨_, rfl, rfl⟩
      | immediate => exact ⟨_, rfl, rfl⟩
      | indirect _ => exact fun _ => ⟨_, rfl, rfl⟩
      | absolute => exact fun _ => ⟨_, rfl, rfl⟩
    | absolute =>
      cases source with
      | register _ => exact ⟨_, rfl, rfl⟩
      -- In the encodings what goes to an absolute address comes from a register.
      | _ => cases encodable
  | loadWord target source =>
    cases target with
    | register name =>
      cases source with
      | register _ => exact rfl
      | immediate => exact rfl
      | indirect _ => exact fun _ _ => rfl
      | absolute => exact fun _ _ => rfl
    | indirect pointer =>
      cases source with
      | register _ => exact ⟨_, rfl, _, rfl, rfl⟩
      | immediate => exact ⟨_, rfl, _, rfl, rfl⟩
      | indirect _ => exact fun _ _ => ⟨_, rfl, _, rfl, rfl⟩
      | absolute => exact fun _ _ => ⟨_, rfl, _, rfl, rfl⟩
    | absolute =>
      cases source with
      | register _ => exact ⟨_, rfl, _, rfl, rfl⟩
      | _ => cases encodable
  | incByte target | decByte target =>
    cases target with
    | register name => exact rfl
    | indirect pointer => exact fun _ => ⟨_, rfl, rfl⟩
    | absolute => cases encodable
  | alu operation source =>
    cases source with
    | register name => exact rfl
    | immediate => exact rfl
    | indirect pointer => exact fun _ => rfl
    | absolute => exact fun _ => rfl
  | exchangeTop => exact fun _ _ => ⟨_, rfl, _, rfl, rfl⟩
  | jump condition => exact rfl
  | jumpRelative condition | djnz => exact rfl
  | call condition =>
    simp only [execute, body, storesAt]
    split
    case isTrue => exact ⟨_, rfl, _, rfl, rfl⟩
    case isFalse => exact rfl
  | ret condition =>
    simp only [execute, body, storesAt]
    split
    case isTrue => exact fun _ _ => rfl
    case isFalse => exact rfl
  | retn | reti | pop _ => exact fun _ _ => rfl
  | rst target => exact ⟨_, rfl, _, rfl, rfl⟩
  | push name => exact ⟨_, rfl, _, rfl, rfl⟩
  | _ => exact rfl

/-- An instruction that has an encoding has at most two operand bytes. -/
lemma operandBytes_le {i : Instruction} (encodable : i.isEncodable = true) : i.operandBytes ≤ 2 := by
  cases i with
  | loadByte target source =>
    cases target with
    | register name | indirect pointer =>
      cases source <;> exact Nat.le_of_ble_eq_true rfl
    | absolute =>
      cases source with
      | register _ => exact Nat.le_refl 2
      | _ => cases encodable
  | loadWord target source =>
    cases target with
    | register name | indirect pointer =>
      cases source <;> exact Nat.le_of_ble_eq_true rfl
    | absolute =>
      cases source with
      | register _ => exact Nat.le_refl 2
      | _ => cases encodable
  | alu operation source => cases source <;> exact Nat.le_of_ble_eq_true rfl
  | _ => exact Nat.le_of_ble_eq_true rfl

/-- Two bytes are enough for the operand of an instruction that has an encoding. -/
lemma length_operands {i : Instruction} (encodable : i.isEncodable = true) (low high : Byte) :
    ([low, high].take i.operandBytes).length = i.operandBytes := by
  rw [List.length_take]
  exact Nat.min_eq_left (operandBytes_le encodable)

/-- An instruction that stands in memory is refused the first of its addresses that is read-only. -/
theorem fault_execute {i : Instruction} (legal : i.isIllegal = false)
    (encodable : i.isEncodable = true) (r : Registers) (m : Ram) :
    ((i.execute r).run m).fault? = m.refusal? (i.storesAt r (m.memory.getWord (r.pc + 1))) := by
  have reads := i.phases_execute r encodable
  rw [← length_operands encodable (m.peek (r.pc + 1)) (m.peek (r.pc + 1 + 1))] at reads
  have stores := stores_execute legal encodable r (m.peek (r.pc + 1)) (m.peek (r.pc + 1 + 1))
  rw [run_answered reads (m.holds_take (r.pc + 1) i.operandBytes)]
  exact stores.fault_run m

/-- So is an instruction whose operand bytes are supplied. -/
theorem fault_withSupplied {i : Instruction} (legal : i.isIllegal = false)
    (encodable : i.isEncodable = true) (r : Registers) (low high : Byte) (m : Ram) :
    (((i.execute r).withSupplied (r.pc + 1) ([low, high].take i.operandBytes)).run m).fault? =
      m.refusal? (i.storesAt r (.ofHalves high low)) := by
  have reads := i.phases_execute r encodable
  rw [← length_operands encodable low high] at reads
  have few : ([low, high].take i.operandBytes).length ≤ 65536 := by
    rw [length_operands encodable]
    exact Nat.le_trans (operandBytes_le encodable) (by decide)
  rw [withSupplied_answered reads few]
  exact ((stores_execute legal encodable r low high).withSupplied _ _).fault_run m

end Instruction

end Z80
