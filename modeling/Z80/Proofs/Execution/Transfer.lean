import Z80.Bus.Ram
import Z80.Execution.Instruction
import Z80.Proofs.Flag.States
import Z80.Proofs.Microprogram.Concludes

/-!
# Transfers of control

Where jumps, calls, returns and restarts go, what they leave on the stack and what they cost, as a
table of rules (`Instruction.Transfers`): one rule for each form that is taken and one for each that
is not. A condition is a question about one flag (`Condition.asks`), and a displacement is a signed
byte added to the address after the instruction.

Main statements: on every bus that completes the accesses, an instruction that transfers control does
what its rule says (`Instruction.transfers_execute`), and no rule changes a register besides PC, SP
and, for DJNZ, B (`Instruction.Transfers.frame`).
-/

namespace Z80

/-- What a condition asks of the flags. -/
def Condition.asks : Condition → Flag.States → Bool
  | nonZero, flags => !flags.zero
  | zero, flags => flags.zero
  | noCarry, flags => !flags.carry
  | carry, flags => flags.carry
  | parityOdd, flags => !flags.parity
  | parityEven, flags => flags.parity
  | positive, flags => !flags.sign
  | negative, flags => flags.sign

/-- A condition holds when the flag it asks for is as it should be. -/
lemma Condition.holds_eq_asks (c : Condition) (flags : Byte) :
    c.holds flags = c.asks (Flag.states flags) := by
  cases c with
  | zero | carry | parityEven | negative => exact beq_true _
  | nonZero | noCarry | parityOdd | positive => exact beq_false _

/-- The address that a signed displacement leads to, from an address. -/
def Word.movedBy (w : Word) (displacement : Byte) : Word :=
  UInt16.ofInt (w.toNat + displacement.toInt8.toInt)

/-- A word is regained from what it counts. -/
lemma Word.ofInt_toNat (w : Word) : UInt16.ofInt w.toNat = w := by
  have small : (w.toNat : Int) < 2 ^ 16 := Int.ofNat_lt.mpr w.toNat_lt
  rw [UInt16.ofInt, Int.emod_eq_of_lt (Int.natCast_nonneg _) small, Int.toNat_natCast,
    UInt16.ofNat_toNat]

/-- To displace a word is to add a byte with its sign, cut to sixteen bits. -/
lemma Word.displace_eq_movedBy (w : Word) (displacement : Byte) :
    w.displace displacement = w.movedBy displacement := by
  have extended : ofHalves (if displacement.bit 7 then 0xFF else 0) displacement =
      UInt16.ofInt displacement.toInt8.toInt :=
    Byte.forall_of_lt (P := fun x => ofHalves (if x.bit 7 then 0xFF else 0) x =
      UInt16.ofInt x.toInt8.toInt) (by decide +kernel) displacement
  rw [displace, movedBy, extended, UInt16.ofInt_add, ofInt_toNat]

/-- Two places on is one place on, twice. -/
lemma Word.add_one_add_one (w : Word) : w + 1 + 1 = w + 2 := UInt16.add_assoc w 1 1

/-- One place after two places back is one place back. -/
lemma Word.sub_two_add_one (w : Word) : w - 2 + 1 = w - 1 := by grind

namespace Registers

/-- The condition of a branch is met by F, or there is none. -/
def grants (r : Registers) (condition : Option Condition) : Bool :=
  condition.all fun c => c.asks (Flag.states r.flags)

/-- A condition is met when the flags grant it. -/
lemma meets_eq_grants (r : Registers) (condition : Option Condition) :
    r.meets condition = r.grants condition := by
  cases condition with
  | none => rfl
  | some c => exact c.holds_eq_asks r.flags

/-- B when it has been counted down. -/
def countedDown (r : Registers) : Byte := r.bc.high - 1

end Registers

namespace Instruction

/-- The instruction may send control somewhere else and does nothing more. -/
def isTransfer : Instruction → Bool
  | jump _ | jumpHl | jumpRelative _ | djnz | call _ | ret _ | rst _ => true
  | _ => false

/-- The accesses of an instruction that transfers control, the registers after it, and the cycles it
takes, given the registers before it. -/
inductive Transfers (r : Registers) :
    Instruction → List Access → Registers → Nat → Prop where
  | jumpTaken (condition : Option Condition) (low high : Byte) (granted : r.grants condition = true) :
      Transfers r (jump condition) [.read (r.pc + 1) low, .read (r.pc + 2) high]
        { r with pc := .ofHalves high low } 10
  | jumpPassed (condition : Option Condition) (low high : Byte)
      (refused : r.grants condition = false) :
      Transfers r (jump condition) [.read (r.pc + 1) low, .read (r.pc + 2) high]
        { r with pc := r.pc + 3 } 10
  | jumpHl : Transfers r jumpHl [] { r with pc := r.hl } 4
  | relativeTaken (condition : Option Condition) (displacement : Byte)
      (granted : r.grants condition = true) :
      Transfers r (jumpRelative condition) [.read (r.pc + 1) displacement]
        { r with pc := (r.pc + 2).movedBy displacement } 12
  | relativePassed (condition : Option Condition) (displacement : Byte)
      (refused : r.grants condition = false) :
      Transfers r (jumpRelative condition) [.read (r.pc + 1) displacement]
        { r with pc := r.pc + 2 } 7
  | djnzTaken (displacement : Byte) (left : r.countedDown ≠ 0) :
      Transfers r djnz [.read (r.pc + 1) displacement]
        { r with bc := .ofHalves r.countedDown r.bc.low, pc := (r.pc + 2).movedBy displacement } 13
  | djnzPassed (displacement : Byte) (used : r.countedDown = 0) :
      Transfers r djnz [.read (r.pc + 1) displacement]
        { r with bc := .ofHalves r.countedDown r.bc.low, pc := r.pc + 2 } 8
  | callTaken (condition : Option Condition) (low high : Byte) (granted : r.grants condition = true) :
      Transfers r (call condition)
        [.read (r.pc + 1) low, .read (r.pc + 2) high,
          .write (r.sp - 2) (r.pc + 3).low, .write (r.sp - 1) (r.pc + 3).high]
        { r with sp := r.sp - 2, pc := .ofHalves high low } 17
  | callPassed (condition : Option Condition) (low high : Byte)
      (refused : r.grants condition = false) :
      Transfers r (call condition) [.read (r.pc + 1) low, .read (r.pc + 2) high]
        { r with pc := r.pc + 3 } 10
  | ret (low high : Byte) :
      Transfers r (ret none) [.read r.sp low, .read (r.sp + 1) high]
        { r with sp := r.sp + 2, pc := .ofHalves high low } 10
  | retTaken (condition : Condition) (low high : Byte) (granted : r.grants condition = true) :
      Transfers r (ret (some condition)) [.read r.sp low, .read (r.sp + 1) high]
        { r with sp := r.sp + 2, pc := .ofHalves high low } 11
  | retPassed (condition : Condition) (refused : r.grants condition = false) :
      Transfers r (ret (some condition)) [] { r with pc := r.pc + 1 } 5
  | rst (target : Byte) :
      Transfers r (rst target)
        [.write (r.sp - 2) (r.pc + 1).low, .write (r.sp - 1) (r.pc + 1).high]
        { r with sp := r.sp - 2, pc := .ofByte target } 11

variable {r after : Registers} {i : Instruction} {seen : List Access} {cycles : Nat}

/-- A transfer of control changes no register besides PC, SP and B, and B for DJNZ only. -/
lemma Transfers.frame (h : Transfers r i seen after cycles) :
    ∃ b, after = { r with bc := .ofHalves b r.bc.low, pc := after.pc, sp := after.sp } ∧
      (i ≠ djnz → b = r.bc.high) := by
  cases h with
  | djnzTaken | djnzPassed => exact ⟨r.countedDown, rfl, fun other => absurd rfl other⟩
  | _ =>
    refine ⟨r.bc.high, ?_, fun _ => rfl⟩
    rw [Word.ofHalves_high_low]

/-- The instruction, executed, does what its rule says and asks nothing more of the processor. -/
def Follows (i : Instruction) (r : Registers) : Prop :=
  (i.execute r).Concludes fun seen done =>
    Transfers r i seen done.registers done.cycles ∧ done.effect = .none

/-- An absolute jump goes where it should. -/
lemma follows_jump (condition : Option Condition) (r : Registers) : (jump condition).Follows r := by
  intro low high
  show Transfers r _ [.read (r.pc + 1) low, .read (r.pc + 1 + 1) high]
    { r with pc := (Flow.jumpIf (r.meets condition) _).address (r.pc + 3) }
    ((jump condition).cycles (Flow.jumpIf (r.meets condition) _).isTaken) ∧ _
  rw [Word.add_one_add_one, r.meets_eq_grants]
  cases h : r.grants condition with
  | true => exact ⟨.jumpTaken condition low high h, rfl⟩
  | false => exact ⟨.jumpPassed condition low high h, rfl⟩

/-- A relative jump goes where it should. -/
lemma follows_jumpRelative (condition : Option Condition) (r : Registers) :
    (jumpRelative condition).Follows r := by
  intro displacement
  show Transfers r _ [.read (r.pc + 1) displacement]
    { r with pc := (Flow.jumpIf (r.meets condition)
      ((r.pc + 2).displace displacement)).address (r.pc + 2) }
    ((jumpRelative condition).cycles (Flow.jumpIf (r.meets condition) _).isTaken) ∧ _
  rw [Word.displace_eq_movedBy, r.meets_eq_grants]
  cases h : r.grants condition with
  | true => exact ⟨.relativeTaken condition displacement h, rfl⟩
  | false => exact ⟨.relativePassed condition displacement h, rfl⟩

/-- A loop instruction counts down and goes where it should. -/
lemma follows_djnz (r : Registers) : djnz.Follows r := by
  intro displacement
  show Transfers r _ [.read (r.pc + 1) displacement]
    { r with
      bc := .ofHalves r.countedDown r.bc.low
      pc := (Flow.jumpIf (r.countedDown != 0)
        ((r.pc + 2).displace displacement)).address (r.pc + 2) }
    (djnz.cycles (Flow.jumpIf (r.countedDown != 0) _).isTaken) ∧ _
  rw [Word.displace_eq_movedBy]
  by_cases used : r.countedDown = 0
  · rw [bne_eq_false_iff_eq.mpr used]
    exact ⟨.djnzPassed displacement used, rfl⟩
  · rw [bne_iff_ne.mpr used]
    exact ⟨.djnzTaken displacement used, rfl⟩

/-- A call leaves its return address on the stack and goes where it should. -/
lemma follows_call (condition : Option Condition) (r : Registers) : (call condition).Follows r := by
  intro low high
  show Microprogram.Concludes _ (Microprogram.bind (if r.meets condition then _ else _) _)
  rw [r.meets_eq_grants]
  cases h : r.grants condition with
  | true =>
    have rule := Transfers.callTaken condition low high h
    rw [← Word.add_one_add_one, ← Word.sub_two_add_one] at rule
    exact ⟨rule, rfl⟩
  | false =>
    have rule := Transfers.callPassed condition low high h
    rw [← Word.add_one_add_one] at rule
    exact ⟨rule, rfl⟩

/-- A return goes where the stack says. -/
lemma follows_ret (condition : Option Condition) (r : Registers) : (ret condition).Follows r := by
  cases condition with
  | none => exact fun low high => ⟨.ret low high, rfl⟩
  | some c =>
    show Microprogram.Concludes _ (Microprogram.bind (if r.meets (some c) then _ else _) _)
    rw [r.meets_eq_grants]
    cases h : r.grants (some c) with
    | true => exact fun low high => ⟨.retTaken c low high h, rfl⟩
    | false => exact ⟨.retPassed c h, rfl⟩

/-- A restart leaves its return address on the stack and goes to its own place. -/
lemma follows_rst (target : Byte) (r : Registers) : (rst target).Follows r := by
  have rule := Transfers.rst (r := r) target
  rw [← Word.sub_two_add_one] at rule
  exact ⟨rule, rfl⟩

/-- Jumps, calls, returns and restarts do what the table of rules says, whatever the registers are, on
every bus that completes the accesses they make. They ask nothing more of the processor. -/
theorem transfers_execute {β : Type} [Bus β] {i : Instruction} (transfer : i.isTransfer = true)
    (r : Registers) (bus : β)
    (completed : ∀ access ∈ ((i.execute r).run bus).trace.accesses, access.error? = none) :
    ∃ done after t, (i.execute r).Completes bus done after t ∧
      Transfers r i t.accesses done.registers done.cycles ∧ done.effect = .none := by
  have follows : i.Follows r := by
    cases i with
    | jump condition => exact follows_jump condition r
    | jumpHl => exact ⟨.jumpHl, rfl⟩
    | jumpRelative condition => exact follows_jumpRelative condition r
    | djnz => exact follows_djnz r
    | call condition => exact follows_call condition r
    | ret condition => exact follows_ret condition r
    | rst target => exact follows_rst target r
    | _ => cases transfer
  exact follows.of_run completed

/-- The carry set, an instruction at the last address but one, and a stack that begins at the second
address of memory. -/
def acrossTheEnd : Registers := { af := 0x0001, pc := 0xFFFE, sp := 1 }

/-- A call of which the operand, the return address and the pushed word all go over the end of
memory. -/
theorem transfers_execute_acrossTheEnd :
    (call (some .carry)).isTransfer = true ∧ acrossTheEnd.grants (some .carry) = true ∧
      ∃ done after t,
        ((call (some .carry)).execute acrossTheEnd).Completes ({} : Ram) done after t ∧
          Transfers acrossTheEnd (call (some .carry)) t.accesses done.registers done.cycles ∧
          done.effect = .none := by
  have transfer : (call (some .carry)).isTransfer = true := rfl
  have completed : ∀ access ∈
      (((call (some .carry)).execute acrossTheEnd).run ({} : Ram)).trace.accesses,
      access.error? = none := by decide +kernel
  exact ⟨transfer, by decide, transfers_execute transfer acrossTheEnd ({} : Ram) completed⟩

end Instruction

end Z80
