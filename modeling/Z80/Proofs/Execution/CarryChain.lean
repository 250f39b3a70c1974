import Mathlib.Data.Nat.Digits.Defs
import Z80.Execution.Instruction
import Z80.Proofs.Flag.Carry

/-!
# Numbers of many digits

Addition and subtraction with carry work on numbers of any length, one digit after the other from
the lowest on, with bytes or with words for digits. The flags go from one instruction to the next
and nothing else does. The number that comes out is exact, and the flags in the end are those of the
whole number (`DigitOperation.chain_exact`). One instruction is exact by the flag rules, and what is
exact in one digit and in those above it is exact in all of them (`Exact.append`).
-/

namespace Z80

namespace Registers

variable (r : Registers) (a : Byte) (u : FlagUpdate)

/-- The flags after an update are what it makes of those before. -/
lemma flags_updateFlags : (r.updateFlags u).flags = u.apply r.flags :=
  r.readByte_writeByte .f (u.apply r.flags)

/-- An update of the flags leaves the accumulator as it is. -/
lemma a_updateFlags : (r.updateFlags u).a = r.a :=
  r.readByte_writeByte_ne (u.apply r.flags) (by decide : ByteRegister.a ≠ .f)

/-- A result that is settled is in the accumulator. -/
lemma a_settle : (r.settle a u).a = a := by
  rw [settle, a_updateFlags]
  exact r.readByte_writeByte .a a

/-- The flags of a result that is settled are what their update makes of those before. -/
lemma flags_settle : (r.settle a u).flags = u.apply r.flags := by
  have kept : (r.withA a).flags = r.flags :=
    r.readByte_writeByte_ne a (by decide : ByteRegister.f ≠ .a)
  rw [settle, flags_updateFlags, kept]

/-- `ADC A` is exact, with the flags it leaves. -/
lemma exact_alu_adc (b : Byte) :
    Exact 256 1 r.a.toNat b.toNat (r.alu .adc b).a.toNat r.flags (r.alu .adc b).flags := by
  show Exact _ _ _ _ (r.settle _ _).a.toNat _ (r.settle _ _).flags
  rw [a_settle, flags_settle]
  exact FlagRule.exact_add r.a b r.flags

/-- `SBC A` is exact, with the flags it leaves. -/
lemma exact_alu_sbc (b : Byte) :
    Exact 256 (-1) r.a.toNat b.toNat (r.alu .sbc b).a.toNat r.flags (r.alu .sbc b).flags := by
  show Exact _ _ _ _ (r.settle _ _).a.toNat _ (r.settle _ _).flags
  rw [a_settle, flags_settle]
  exact FlagRule.exact_sub r.a b r.flags

variable (name : WordRegister)

/-- `ADC HL` is exact, with the flags it leaves. -/
lemma exact_adcHl :
    Exact 65536 1 r.hl.toNat (r.readWord name).toNat (r.adcHl name).hl.toNat r.flags
      (r.adcHl name).flags := by
  rw [adcHl, flags_updateFlags]
  exact FlagRule.exact_adcWord r.hl (r.readWord name) r.flags

/-- `SBC HL` is exact, with the flags it leaves. -/
lemma exact_sbcHl :
    Exact 65536 (-1) r.hl.toNat (r.readWord name).toNat (r.sbcHl name).hl.toNat r.flags
      (r.sbcHl name).flags := by
  rw [sbcHl, flags_updateFlags]
  exact FlagRule.exact_sbcWord r.hl (r.readWord name) r.flags

end Registers

/-- An instruction that works on two numbers of many digits, one digit of each at a time. -/
structure DigitOperation (δ : Type) where
  instruction : Instruction
  base : Nat
  value : δ → Nat
  /-- Puts the two digits where the instruction takes them from. -/
  load : Registers → δ → δ → Registers
  /-- The digit that the instruction has put out. -/
  digit : Registers → δ

namespace DigitOperation

variable {δ : Type}

/-- The instruction is run once for each pair of digits, the lowest first, with its digits loaded.
-/
def chain (o : DigitOperation δ) : Registers → List (δ × δ) → Microprogram (List δ × Registers)
  | r, [] => return ([], r)
  | r, (a, b) :: rest => do
    let done ← o.instruction.execute (o.load r a b)
    let (higher, last) ← o.chain done.registers rest
    return (o.digit done.registers :: higher, last)

/-- The number of which these are the digits, the lowest first. -/
def number (o : DigitOperation δ) (digits : List δ) : Nat :=
  Nat.ofDigits o.base (digits.map o.value)

/-- The chain completes without the bus, and the number it puts out is exact. -/
def ExactOn (o : DigitOperation δ) (direction : Int) (r : Registers) (digits : List (δ × δ)) :
    Prop :=
  ∃ result last, o.chain r digits = .done (result, last) ∧ result.length = digits.length ∧
    Exact (o.base ^ digits.length) direction (o.number (digits.map Prod.fst))
      (o.number (digits.map Prod.snd)) (o.number result) r.flags last.flags

/-- A single run of the instruction completes without the bus, and the digit it puts out is exact.
-/
def ExactAt (o : DigitOperation δ) (direction : Int) (a b : δ) : Prop :=
  ∀ r, ∃ done, o.instruction.execute (o.load r a b) = .done done ∧
    Exact o.base direction (o.value a) (o.value b) (o.value (o.digit done.registers)) r.flags
      done.registers.flags

/-- A number is its lowest digit and, one place up, the number of the others. -/
lemma number_cons (o : DigitOperation δ) (d : δ) (digits : List δ) :
    o.number (d :: digits) = o.value d + o.base * o.number digits :=
  Nat.ofDigits_cons

/-- The values of the digits are below the base, which is even. -/
structure WellBased (o : DigitOperation δ) : Prop where
  even : 2 ∣ o.base
  large : 1 < o.base
  value_lt : ∀ d, o.value d < o.base

variable {o : DigitOperation δ} {direction : Int}

/-- A number of so many digits stays below that power of the base. -/
lemma WellBased.number_lt (h : o.WellBased) (digits : List δ) :
    o.number digits < o.base ^ digits.length := by
  have below : ∀ x ∈ digits.map o.value, x < o.base := by
    intro x hx
    obtain ⟨d, -, rfl⟩ := List.mem_map.mp hx
    exact h.value_lt d
  have lt := Nat.ofDigits_lt_base_pow_length h.large below
  rwa [List.length_map] at lt

/-- A chain puts out the digit of its first operation, then those of the chain that goes on from
there. -/
lemma chain_cons {r : Registers} {a b : δ} {rest : List (δ × δ)} {done : Retirement}
    (run : o.instruction.execute (o.load r a b) = .done done) {result : List δ} {last : Registers}
    (higher : o.chain done.registers rest = .done (result, last)) :
    o.chain r ((a, b) :: rest) = .done (o.digit done.registers :: result, last) := by
  rw [chain, run]
  show (o.chain done.registers rest).bind _ = _
  rw [higher]
  rfl

/-- What is exact on each pair of digits is exact on all of them. -/
theorem exactOn_of_exactAt (h : o.WellBased) {digits : List (δ × δ)} (some : digits ≠ [])
    (each : ∀ d ∈ digits, o.ExactAt direction d.1 d.2) (r : Registers) :
    o.ExactOn direction r digits := by
  induction digits generalizing r with
  | nil => exact absurd rfl some
  | cons d rest ih =>
    obtain ⟨a, b⟩ := d
    obtain ⟨first, others⟩ := List.forall_mem_cons.mp each
    obtain ⟨done, run, exact₁⟩ := first r
    cases rest with
    | nil =>
      -- The last digit is exact by itself. No digits at all would leave no flags to look at.
      refine ⟨[o.digit done.registers], done.registers, chain_cons run rfl, rfl, ?_⟩
      simp only [List.map_cons, List.map_nil, number_cons, List.length_singleton, pow_one]
      exact exact₁
    | cons d' rest =>
      obtain ⟨result, last, higher, length, exact₂⟩ :=
        ih (List.cons_ne_nil _ _) others done.registers
      have even : 2 ∣ o.base ^ (d' :: rest).length := dvd_pow h.even (Nat.succ_ne_zero _)
      have above := h.number_lt ((d' :: rest).map Prod.fst)
      have above' := h.number_lt ((d' :: rest).map Prod.snd)
      rw [List.length_map] at above above'
      refine ⟨o.digit done.registers :: result, last, chain_cons run higher,
        congrArg (· + 1) length, ?_⟩
      rw [List.length_cons, pow_succ', List.map_cons, List.map_cons, number_cons, number_cons,
        number_cons]
      exact exact₁.append even exact₂ (h.value_lt a) (h.value_lt b) above above'

/-- `ADC A,B`. -/
def adcBytes : DigitOperation Byte where
  instruction := .alu .adc (.register .b)
  base := 256
  value := UInt8.toNat
  load r a b := (r.withA a).writeByte .b b
  digit := Registers.a

/-- `SBC A,B`. -/
def sbcBytes : DigitOperation Byte := { adcBytes with instruction := .alu .sbc (.register .b) }

/-- `ADC HL,rr`. -/
def adcWords (name : WordRegister) : DigitOperation Word where
  instruction := .adcHl name
  base := 65536
  value := UInt16.toNat
  load r a b := (r.writeWord .hl a).writeWord name b
  digit := Registers.hl

/-- `SBC HL,rr`. -/
def sbcWords (name : WordRegister) : DigitOperation Word :=
  { adcWords name with instruction := .sbcHl name }

/-- Bytes are digits to the base 256. -/
lemma wellBased_bytes {o : DigitOperation Byte} (base : o.base = 256)
    (value : o.value = UInt8.toNat) : o.WellBased := by
  refine ⟨?_, ?_, ?_⟩
  · rw [base]
    exact ⟨128, rfl⟩
  · rw [base]
    decide
  · rw [base, value]
    exact UInt8.toNat_lt

/-- Words are digits to the base 65536. -/
lemma wellBased_words {o : DigitOperation Word} (base : o.base = 65536)
    (value : o.value = UInt16.toNat) : o.WellBased := by
  refine ⟨?_, ?_, ?_⟩
  · rw [base]
    exact ⟨32768, rfl⟩
  · rw [base]
    decide
  · rw [base, value]
    exact UInt16.toNat_lt

/-- Two bytes are put where the operation takes them from, and the flags stay as they were. -/
lemma loaded_bytes (r : Registers) (a b : Byte) :
    (adcBytes.load r a b).a = a ∧ (adcBytes.load r a b).readByte .b = b ∧
      (adcBytes.load r a b).flags = r.flags := by
  refine ⟨?_, ?_, ?_⟩
  · have kept : ((r.withA a).writeByte .b b).a = (r.withA a).a :=
      (r.withA a).readByte_writeByte_ne b (by decide : ByteRegister.a ≠ .b)
    exact kept.trans (r.readByte_writeByte .a a)
  · exact (r.withA a).readByte_writeByte .b b
  · have kept : ((r.withA a).writeByte .b b).flags = (r.withA a).flags :=
      (r.withA a).readByte_writeByte_ne b (by decide : ByteRegister.f ≠ .b)
    exact kept.trans (r.readByte_writeByte_ne a (by decide : ByteRegister.f ≠ .a))

/-- What the arithmetic unit does exactly to accumulator and operand, it does exactly to the digits.
-/
lemma exactAt_bytes {operation : AluOperation}
    (exact : ∀ (r : Registers) b, Exact 256 direction r.a.toNat b.toNat (r.alu operation b).a.toNat
      r.flags (r.alu operation b).flags) (a b : Byte) :
    { adcBytes with instruction := .alu operation (.register .b) }.ExactAt direction a b := by
  intro r
  obtain ⟨ha, hb, flags⟩ := loaded_bytes r a b
  have onDigits := exact (adcBytes.load r a b) b
  rw [ha, flags] at onDigits
  refine ⟨_, rfl, ?_⟩
  show Exact _ _ _ _
    ((adcBytes.load r a b).alu operation ((adcBytes.load r a b).readByte .b)).a.toNat _
    ((adcBytes.load r a b).alu operation ((adcBytes.load r a b).readByte .b)).flags
  rw [hb]
  exact onDigits

variable {name : WordRegister} {a b : Word}

/-- HL is an operand twice in `ADC HL,HL`, so the digits have to be the same then. -/
lemma loaded_words (r : Registers) (named : name ∈ WordRegister.table) (same : name = .hl → a = b) :
    ((adcWords name).load r a b).hl = a ∧ ((adcWords name).load r a b).readWord name = b ∧
      ((adcWords name).load r a b).flags = r.flags := by
  cases name with
  | af | pc => exact absurd named (by decide)
  | hl => exact ⟨(same rfl).symm, rfl, rfl⟩
  | bc | de | sp => exact ⟨rfl, rfl, rfl⟩

/-- An addition of two words with the carry is exact, wherever the second one is taken from. -/
lemma exactAt_adcWords (named : name ∈ WordRegister.table) (same : name = .hl → a = b) :
    (adcWords name).ExactAt 1 a b := by
  intro r
  obtain ⟨ha, hb, flags⟩ := loaded_words r named same
  have exact := ((adcWords name).load r a b).exact_adcHl name
  rw [ha, hb, flags] at exact
  exact ⟨_, rfl, exact⟩

/-- A subtraction of two words with the carry is exact, wherever the second one is taken from. -/
lemma exactAt_sbcWords (named : name ∈ WordRegister.table) (same : name = .hl → a = b) :
    (sbcWords name).ExactAt (-1) a b := by
  intro r
  obtain ⟨ha, hb, flags⟩ := loaded_words r named same
  have exact := ((adcWords name).load r a b).exact_sbcHl name
  rw [ha, hb, flags] at exact
  exact ⟨_, rfl, exact⟩

/-- Arithmetic on numbers of any length is exact, with bytes for digits and with words. Whatever the
flags are in the beginning, the number that comes out is the sum of the two and the carry, or the
first less the second and less the carry, but for the carry in the end; the overflow flag tells in
the end whether the whole number overflows in two's complement, and the sign flag is its sign. -/
theorem chain_exact (r : Registers) :
    (∀ digits : List (Byte × Byte), digits ≠ [] →
        adcBytes.ExactOn 1 r digits ∧ sbcBytes.ExactOn (-1) r digits) ∧
      ∀ name ∈ WordRegister.table, ∀ digits : List (Word × Word), digits ≠ [] →
        (name = .hl → ∀ d ∈ digits, d.1 = d.2) →
          (adcWords name).ExactOn 1 r digits ∧ (sbcWords name).ExactOn (-1) r digits := by
  constructor
  · intro digits some
    constructor
    · exact exactOn_of_exactAt (wellBased_bytes rfl rfl) some
        (fun d _ => exactAt_bytes (fun r b => r.exact_alu_adc b) d.1 d.2) r
    · exact exactOn_of_exactAt (wellBased_bytes rfl rfl) some
        (fun d _ => exactAt_bytes (fun r b => r.exact_alu_sbc b) d.1 d.2) r
  · intro name named digits some same
    constructor
    · exact exactOn_of_exactAt (wellBased_words rfl rfl) some
        (fun d hd => exactAt_adcWords named fun hl => same hl d hd) r
    · exact exactOn_of_exactAt (wellBased_words rfl rfl) some
        (fun d hd => exactAt_sbcWords named fun hl => same hl d hd) r

/-- The carry is set. -/
def carrySet : Registers := { af := 0xFFFF }

/-- In each of the chains a carry that comes in meets a digit of ones: `0x7FFF` and minus one,
`0x80000000` less `0xFFFF`, which overflows, and `0x7FFFFFFF` doubled, which does, too. -/
theorem chain_exact_carrySet :
    adcBytes.ExactOn 1 carrySet [(0xFF, 0xFF), (0x7F, 0xFF)] ∧
      (sbcWords .bc).ExactOn (-1) carrySet [(0, 0xFFFF), (0x8000, 0)] ∧
      (adcWords .hl).ExactOn 1 carrySet [(0xFFFF, 0xFFFF), (0x7FFF, 0x7FFF)] := by
  obtain ⟨bytes, words⟩ := chain_exact carrySet
  obtain ⟨sum, -⟩ := bytes [(0xFF, 0xFF), (0x7F, 0xFF)] (by decide)
  obtain ⟨-, difference⟩ := words .bc (by decide) [(0, 0xFFFF), (0x8000, 0)] (by decide) nofun
  obtain ⟨doubled, -⟩ :=
    words .hl (by decide) [(0xFFFF, 0xFFFF), (0x7FFF, 0x7FFF)] (by decide) (by simp)
  exact ⟨sum, difference, doubled⟩

end DigitOperation

end Z80
