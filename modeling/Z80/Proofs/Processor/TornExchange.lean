import Z80.Proofs.Bus.Steady
import Z80.Proofs.Memory.Load
import Z80.Proofs.Processor.Essential

/-!
# Exchanges that are stored in part

The exchange of HL with the word on top of the stack reads the word that it overwrites. When it is begun
again after the low byte was stored and the high byte was not, it reads the low byte of HL where the low
byte of the word had been. Everything comes out as it would have, but that L keeps its value
(`Registers.keepsL_advance`).
-/

namespace Z80

open Microprogram

/-- The second completion is like the first, but that L has the value that is given. -/
structure Completion.KeepsL {β : Type} (l : Byte) (whole again : Completion β Advance) : Prop where
  bus : again.bus = whole.bus
  ending : (∃ a, whole.ending = .ok a ∧
      again.ending = .ok { a with registers := a.registers.writeByte .l l }) ∨
    ∃ abort, whole.ending = .error abort ∧ again.ending = .error abort

/-- What was seen before makes no difference. -/
lemma Completion.KeepsL.after {β : Type} {l : Byte} {whole again : Completion β Advance}
    {seen seen' : Observation} (h : whole.KeepsL l again) :
    (whole.after seen).KeepsL l (again.after seen') :=
  ⟨h.bus, h.ending⟩

/-- The bus has completed an access and then others, none of them a store, and has stored a byte. What is
left of it completes the first access as before. -/
structure Bus.Halfway {β : Type} [Bus β] (bus after : β) (access : Access) (later : List Access)
    (first : Word) (low : Byte) : Prop where
  opened : access.request.meet bus = (access, bus)
  opened' : access.request.meet after = (access, after)
  answers : Bus.perform bus (later.map Access.request) = (later, bus)
  unwritten : ∀ address value, .write address value ∉ later
  stored : Bus.write bus first low = (.ok (), after)

namespace Microprogram

variable {α β : Type}

/-- Reads the word at an address, stores another there, and goes on with what it has read. -/
def exchangeWord (now : Registers) (address value : Word) (next : Word → Microprogram α) :
    Microprogram α :=
  .read now address fun low => .read now (address + 1) fun high =>
    .write now address value.low (.write now (address + 1) value.high (next (.ofHalves high low)))

variable {now : Registers} {address value first : Word} {low : Byte} {request : Request}

/-- When an exchange has stored a byte and asks for another access, it has read the word and stored the
low byte. -/
lemma exchangeWord_asks_inv {next : Word → Microprogram α} {before : List Access}
    (h : (exchangeWord now address value next).Asks (before ++ [.write first low]) request)
    (unwritten : ∀ address value, .write address value ∉ before) :
    first = address ∧ low = value.low ∧
      ∃ lower higher, before = [.read address lower, .read (address + 1) higher] := by
  match before with
  | [] =>
    obtain ⟨_, impossible, -⟩ := h
    cases impossible
  | [_] =>
    obtain ⟨_, rfl, _, impossible, -⟩ := h
    cases impossible
  | [_, _] =>
    obtain ⟨lower, rfl, higher, rfl, stored, -⟩ := h
    cases stored
    exact ⟨rfl, rfl, lower, higher, rfl⟩
  | _ :: _ :: _ :: _ =>
    obtain ⟨_, rfl, _, rfl, rfl, -⟩ := h
    exact absurd (by simp) (unwritten address value.low)

variable [Bus β] {bus after : β}

/-- A read that is answered is seen, and the work goes on with the byte. -/
lemma run_read {next : Byte → Microprogram α} (answer : Bus.read bus address = (.ok low, after)) :
    (read now address next).run bus = ((next low).run after).after (.access (.read address low)) := by
  simp only [run, answer]

/-- An acknowledge cycle that is answered is seen, and the work goes on with the byte. -/
lemma run_acknowledge {next : Byte → Microprogram α}
    (answer : Bus.acknowledge bus = (.ok low, after)) :
    (acknowledge now next).run bus = ((next low).run after).after (.access (.acknowledge low)) := by
  simp only [run, answer]

variable {access : Access} {later : List Access}

/-- An exchange that is begun again reads the byte that it has stored. -/
lemma keepsL_exchangeWord (store : Bus.Store β) (half : Bus.Halfway bus after access later first low)
    (now : Registers) (address value : Word) (next : Word → Microprogram Advance)
    (asks : (exchangeWord now address value next).Asks (later ++ [.write first low]) request)
    (ends : ∀ word (bus : β), Completion.KeepsL value.low ((next word).run bus)
      ((next (word.withLow value.low)).run bus)) :
    Completion.KeepsL value.low ((exchangeWord now address value next).run bus)
      ((exchangeWord now address value next).run after) := by
  obtain ⟨rfl, rfl, lower, higher, rfl⟩ := exchangeWord_asks_inv asks half.unwritten
  obtain ⟨middle, met, rest⟩ := Bus.perform_cons_inv half.answers
  obtain ⟨last, met', done⟩ := Bus.perform_cons_inv rest
  have read := Request.meet_read_inv met
  have read' := Request.meet_read_inv met'
  obtain rfl : middle = bus := by
    rw [← store.read bus first, read]
  obtain rfl : last = middle := (Prod.mk.inj done).2
  have stored := half.stored
  -- What is read now is the low byte of HL, and next to it what was read before.
  have again : Bus.read after first = (.ok value.low, after) :=
    Prod.ext (store.here stored) (store.read _ _)
  have beside := store.elsewhere stored (first + 1) (Word.ne_add_one first).symm
  rw [read'] at beside
  have again' : Bus.read after (first + 1) = (.ok higher, after) :=
    Prod.ext beside (store.read _ _)
  simp only [exchangeWord, run, read, read', again, again', stored, store.again stored]
  split
  case h_1 final _ =>
    have last := ends (.ofHalves higher lower) final
    rw [Word.withLow, Word.high_ofHalves] at last
    exact ⟨last.bus, last.ending⟩
  case h_2 => exact ⟨rfl, .inr ⟨_, rfl, rfl⟩⟩

end Microprogram

namespace Instruction

/-- The exchange of HL with the word on top of the stack has one opcode. -/
lemma opcode_exchangeTop (opcode : Byte) : ofOpcode opcode = .exchangeTop → opcode = 0xE3 := by
  revert opcode
  exact Byte.forall_of_lt (by decide +kernel)

/-- The extended page has no `EX (SP),HL`. -/
lemma ofExtendedOpcode_ne_exchangeTop (opcode : Byte) : ofExtendedOpcode opcode ≠ .exchangeTop := by
  revert opcode
  exact Byte.forall_of_lt (by decide +kernel)

/-- One opcode alone is seen as `EX (SP),HL`. -/
lemma ofAccesses_exchangeTop (address : Word) {opcode : Byte} {later : List Access}
    (h : ofAccesses? (.read address opcode :: later) = some .exchangeTop) : opcode = 0xE3 := by
  simp only [ofAccesses?] at h
  split at h
  case isTrue =>
    split at h
    case h_1 => exact absurd (Option.some.inj h) (ofExtendedOpcode_ne_exchangeTop _)
    case h_2 => cases h
  case isFalse => exact opcode_exchangeTop opcode (Option.some.inj h)

end Instruction

namespace Registers

/-- To write back what a register pair holds changes nothing. -/
lemma writeWord_readWord (r : Registers) (name : WordRegister) :
    r.writeWord name (r.readWord name) = r := by
  cases name <;> rfl

/-- To write back what a byte register holds changes nothing. -/
lemma writeByte_readByte (r : Registers) (name : ByteRegister) :
    r.writeByte name (r.readByte name) = r := by
  unfold readByte writeByte
  cases name.half <;> simp [Word.withHigh, Word.withLow, writeWord_readWord]

variable {β : Type} [Bus β] {bus after : β} {r : Registers} {mode : InterruptMode} {access : Access}
  {later seen : List Access} {first : Word} {low : Byte} {request : Request}

/-- A fetched `EX (SP),HL` that is run again after half of its store comes to the same, but the low
byte of `HL` stays. -/
lemma keepsL_fetchExecute (store : Bus.Store β) (half : Bus.Halfway bus after access later first low)
    {repair : Registers → Registers}
    (asks : ((r.fetchExecute mode).onAbort repair).Asks (access :: (later ++ [.write first low])) request)
    (begun : Instruction.begun? mode (access :: seen) = some .exchangeTop) :
    Completion.KeepsL (r.readByte .l) (((r.fetchExecute mode).onAbort repair).run bus)
      (((r.fetchExecute mode).onAbort repair).run after) := by
  obtain ⟨opcode, rfl, asks⟩ := asks
  obtain rfl : opcode = 0xE3 := Instruction.ofAccesses_exchangeTop r.pc begun
  have exchange := keepsL_exchangeWord store half (repair r) r.sp r.hl
    (fun top => .report (.event (.instructionRetired r.pc 19)) (.done
      { registers := { r with hl := top, pc := r.pc + 1 }, mode := mode, outcome := .retired 19 }))
    asks fun word bus => ⟨rfl, .inl ⟨_, rfl, rfl⟩⟩
  have opened : ((r.fetchExecute mode).onAbort repair).run bus = _ :=
    run_read (Request.meet_read_inv half.opened)
  have opened' : ((r.fetchExecute mode).onAbort repair).run after = _ :=
    run_read (Request.meet_read_inv half.opened')
  rw [opened, opened']
  exact exchange.after.after.after

/-- A supplied `EX (SP),HL` that is run again after half of its store comes to the same, but the low
byte of `HL` stays. -/
lemma keepsL_acceptInt (store : Bus.Store β) (half : Bus.Halfway bus after access later first low)
    (asks : (r.acceptInt mode).Asks (access :: (later ++ [.write first low])) request)
    (begun : Instruction.begun? mode (access :: seen) = some .exchangeTop) :
    Completion.KeepsL (r.readByte .l) ((r.acceptInt mode).run bus) ((r.acceptInt mode).run after) := by
  obtain ⟨opcode, rfl, asks⟩ := asks
  cases mode with
  | mode0 =>
    obtain rfl : opcode = 0xE3 := Instruction.opcode_exchangeTop opcode (Option.some.inj begun)
    have exchange := keepsL_exchangeWord store half r r.sp r.hl
      (fun top => .report (.record (.intAccepted .mode0 (r.pc - 1 + 1)))
        (.report (.event (.interruptAccepted (.maskable .mode0) (r.pc - 1 + 1))) (.done
          { registers := { r.withInterruptsEnabled false with
              hl := top, pc := r.pc - 1 + 1, halted := false }
            mode := .mode0
            outcome := .interrupted (.maskable .mode0) 21 })))
      asks fun word bus => ⟨rfl, .inl ⟨_, rfl, rfl⟩⟩
    have opened : (r.acceptInt .mode0).run bus = _ :=
      run_acknowledge (Request.meet_acknowledge_inv half.opened)
    have opened' : (r.acceptInt .mode0).run after = _ :=
      run_acknowledge (Request.meet_acknowledge_inv half.opened')
    rw [opened, opened']
    exact exchange.after
  | mode1 | mode2 => cases begun

/-- A step that exchanges HL with the word on top of the stack, and that is begun again when the low byte
is stored, leaves L as it was. Nothing else is different. -/
theorem keepsL_advance (store : Bus.Store β) (half : Bus.Halfway bus after access later first low)
    (asks : (r.advance mode).Asks (access :: (later ++ [.write first low])) request)
    (begun : Instruction.begun? mode (access :: seen) = some .exchangeTop) :
    Completion.KeepsL (r.readByte .l) ((r.advance mode).run bus) ((r.advance mode).run after) := by
  unfold advance at asks ⊢
  split at asks
  case isTrue =>
    obtain ⟨rfl, -⟩ := asks
    cases begun
  case isFalse hn =>
    split at asks
    case isTrue ha =>
      rw [if_neg hn, if_pos ha]
      exact keepsL_acceptInt store half asks begun
    case isFalse ha =>
      split at asks
      case isTrue => exact asks.elim
      case isFalse hh =>
        rw [if_neg hn, if_neg ha, if_neg hh]
        exact keepsL_fetchExecute (r := { r with eiExecuted := false }) store half asks begun

end Registers

end Z80
