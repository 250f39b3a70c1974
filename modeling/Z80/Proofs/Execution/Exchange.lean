import Z80.Execution.Instruction
import Z80.Proofs.Bus.Success
import Z80.Proofs.Memory.Load
import Z80.Proofs.Microprogram.Completion

/-!
# Exchanges

The exchange instructions move words between nine places: the four register pairs, their shadows, and
the top of the stack. Each of them makes places change with their partners and leaves the others as they
are (`Swap.partner`), so whatever order they come in, the words in the nine places are those that were
there before, and the exchanges in reverse order put each of them back (`Swap.exchanges_permute`). The
top of the stack is a place like any other although it is two bytes of memory, which may be at the two
ends of it.
-/

namespace Z80

/-- What exchanges: registers with each other, or HL with the top of the stack. -/
inductive Swap where
  | registers (kind : Exchange)
  | top
  deriving DecidableEq, Repr

/-- A place for a word that exchanges reach. -/
inductive Place where
  | af
  | bc
  | de
  | hl
  | shadowAf
  | shadowBc
  | shadowDe
  | shadowHl
  | top
  deriving DecidableEq, Repr

namespace Place

def all : List Place := [af, bc, de, hl, shadowAf, shadowBc, shadowDe, shadowHl, top]

/-- The word that stands in the place. -/
def held (r : Registers) (m : Memory) : Place → Word
  | af => r.af
  | bc => r.bc
  | de => r.de
  | hl => r.hl
  | shadowAf => r.shadow.af
  | shadowBc => r.shadow.bc
  | shadowDe => r.shadow.de
  | shadowHl => r.shadow.hl
  | top => m.getWord r.sp

/-- Each place holds what another has held before, and nothing else has changed, but for the program
counter, which has gone on by so many bytes. -/
structure Moved (origin : Place → Place) (n : Nat) (r : Registers) (m : Memory) (r' : Registers)
    (m' : Memory) : Prop where
  held : ∀ place, place.held r' m' = (origin place).held r m
  registers : r' = { r with
    af := r'.af
    bc := r'.bc
    de := r'.de
    hl := r'.hl
    shadow := r'.shadow
    pc := r.pc + UInt16.ofNat n }
  memory : ∀ address, address ≠ r.sp → address ≠ r.sp + 1 → m'.get address = m.get address

namespace Moved

variable {f g : Place → Place} {k n : Nat} {r r' r'' : Registers} {m m' m'' : Memory}

/-- Nothing has been moved where nothing was exchanged. -/
lemma refl (r : Registers) (m : Memory) : Moved id 0 r m r m where
  held := fun _ => rfl
  registers := by
    show r = { r with pc := r.pc + 0 }
    rw [UInt16.add_zero]
  memory := fun _ _ _ => rfl

/-- The stack pointer is not moved. -/
lemma sp_eq (h : Moved f k r m r' m') : r'.sp = r.sp := by
  rw [h.registers]

/-- What was moved in two parts comes from the origin of its origin. -/
lemma trans (h : Moved f k r m r' m') (h' : Moved g n r' m' r'' m'') :
    Moved (f ∘ g) (k + n) r m r'' m'' where
  held := fun place => (h'.held place).trans (h.held (g place))
  registers := by
    have pc : r'.pc = r.pc + UInt16.ofNat k := congrArg Registers.pc h.registers
    rw [UInt16.ofNat_add, ← UInt16.add_assoc, ← pc]
    exact h'.registers.trans (by rw [h.registers])
  memory := by
    intro address low high
    rw [h'.memory address (h.sp_eq ▸ low) (h.sp_eq ▸ high), h.memory address low high]

/-- A word that is held is held in its two bytes. -/
lemma memory_eq (h : Moved id n r m r' m') : m' = m := by
  have top : m'.getWord r'.sp = m.getWord r.sp := h.held top
  rw [h.sp_eq] at top
  apply Memory.ext_get
  intro address
  by_cases low : address = r.sp
  · rw [low, ← Word.low_ofHalves (m'.get (r.sp + 1)) (m'.get r.sp)]
    exact (congrArg Word.low top).trans (Word.low_ofHalves _ _)
  · by_cases high : address = r.sp + 1
    · rw [high, ← Word.high_ofHalves (m'.get (r.sp + 1)) (m'.get r.sp)]
      exact (congrArg Word.high top).trans (Word.high_ofHalves _ _)
    · exact h.memory address low high

/-- Where every place holds what it held, only the program counter has moved. -/
lemma registers_eq (h : Moved id n r m r' m') :
    r' = { r with pc := r.pc + UInt16.ofNat n } := by
  have shadow : r'.shadow = r.shadow := by
    have af : r'.shadow.af = r.shadow.af := h.held shadowAf
    have bc : r'.shadow.bc = r.shadow.bc := h.held shadowBc
    have de : r'.shadow.de = r.shadow.de := h.held shadowDe
    have hl : r'.shadow.hl = r.shadow.hl := h.held shadowHl
    calc r'.shadow = ⟨r'.shadow.af, r'.shadow.bc, r'.shadow.de, r'.shadow.hl⟩ := rfl
      _ = r.shadow := by rw [af, bc, de, hl]
  have af : r'.af = r.af := h.held Place.af
  have bc : r'.bc = r.bc := h.held Place.bc
  have de : r'.de = r.de := h.held Place.de
  have hl : r'.hl = r.hl := h.held Place.hl
  rw [h.registers, af, bc, de, hl, shadow]

/-- The words are those that were there before, if each place is the origin of one. -/
lemma perm (h : Moved f n r m r' m') (origins : (all.map f).Perm all) :
    (all.map (Place.held r' m')).Perm (all.map (Place.held r m)) := by
  have moved : all.map (Place.held r' m') = (all.map f).map (Place.held r m) := by
    rw [List.map_map]
    exact List.map_congr_left fun place _ => h.held place
  rw [moved]
  exact origins.map _

end Moved

end Place

namespace Swap

open Microprogram Place

/-- The instruction that makes the exchange. -/
def instruction : Swap → Instruction
  | registers kind => .exchange kind
  | top => .exchangeTop

/-- The place that another place changes with. -/
def partner : Swap → Place → Place
  | registers .af, .af => .shadowAf
  | registers .af, .shadowAf => .af
  | registers .pairs, .bc => .shadowBc
  | registers .pairs, .shadowBc => .bc
  | registers .pairs, .de => .shadowDe
  | registers .pairs, .shadowDe => .de
  | registers .pairs, .hl => .shadowHl
  | registers .pairs, .shadowHl => .hl
  | registers .deHl, .de => .hl
  | registers .deHl, .hl => .de
  | top, .hl => .top
  | top, .top => .hl
  | _, place => place

/-- Partners are partners of each other. -/
lemma partner_involutive (s : Swap) : s.partner ∘ s.partner = id := by
  funext place
  cases s with
  | registers kind => cases kind <;> cases place <;> rfl
  | top => cases place <;> rfl

/-- An exchange rearranges the places. -/
lemma map_partner_perm (s : Swap) : (all.map s.partner).Perm all := by
  cases s with
  | registers kind => cases kind <;> decide
  | top => decide

/-- Where the word in a place comes from when exchanges have been made in this order. -/
def origin : List Swap → Place → Place
  | [] => id
  | s :: later => s.partner ∘ origin later

/-- What was exchanged in two parts comes from the origin of its origin. -/
lemma origin_append (swaps others : List Swap) :
    origin (swaps ++ others) = origin swaps ∘ origin others := by
  induction swaps with
  | nil => rfl
  | cons s later ih => exact congrArg (s.partner ∘ ·) ih

/-- Exchanges made once more in reverse order bring everything back. -/
lemma origin_reverse (swaps : List Swap) : origin (swaps ++ swaps.reverse) = id := by
  induction swaps with
  | nil => rfl
  | cons s later ih =>
    rw [List.reverse_cons, ← List.append_assoc, origin_append, List.cons_append, origin, ih]
    exact s.partner_involutive

/-- Any sequence of exchanges rearranges the places. -/
lemma map_origin_perm (swaps : List Swap) : (all.map (origin swaps)).Perm all := by
  induction swaps with
  | nil => exact .of_eq (List.map_id all)
  | cons s later ih =>
    have first : all.map (origin (s :: later)) = (all.map (origin later)).map s.partner :=
      (List.map_map).symm
    rw [first]
    exact (ih.map s.partner).trans s.map_partner_perm

/-- Exchanges are made one after the other: the registers in the end. -/
def executeAll (r : Registers) : List Swap → Microprogram Registers
  | [] => return r
  | s :: later => do
    let done ← s.instruction.execute r
    executeAll done.registers later

section

variable {m : Ram} (unguarded : m.romSize = 0) (r : Registers)

include unguarded

/-- A single exchange makes the places change with their partners. -/
lemma completes_execute (s : Swap) :
    ∃ done memory t, (s.instruction.execute r).Completes m done { m with memory } t ∧
      Moved s.partner 1 r m.memory done.registers memory := by
  cases s with
  | registers kind =>
    refine ⟨_, m.memory, [], rfl, ?_, ?_, fun _ _ _ => rfl⟩
    · intro place
      cases kind <;> cases place <;> rfl
    · cases kind <;> rfl
  | top =>
    have free := Ram.write_unguarded unguarded
    refine ⟨_, (m.memory.set r.sp r.hl.low).set (r.sp + 1) r.hl.high, _,
      .read rfl (.read rfl (.write (free _ r.hl.low m.memory) (.write (free _ r.hl.high _) rfl))),
      ?_, rfl, ?_⟩
    -- The word at the top is written in two bytes, next to each other.
    · intro place
      cases place with
      | top =>
        have low : ((m.memory.set r.sp r.hl.low).set (r.sp + 1) r.hl.high).get r.sp = r.hl.low := by
          rw [Memory.get_set, if_neg (Word.ne_add_one r.sp), Memory.get_set, if_pos rfl]
        have high : ((m.memory.set r.sp r.hl.low).set (r.sp + 1) r.hl.high).get (r.sp + 1) =
            r.hl.high := by
          rw [Memory.get_set, if_pos rfl]
        show Memory.getWord _ r.sp = r.hl
        rw [Memory.getWord, low, high, Word.ofHalves_high_low]
      | _ => rfl
    · intro address low high
      rw [Memory.get_set, if_neg high, Memory.get_set, if_neg low]

/-- Exchanges in a row bring to each place the word from its origin. -/
lemma completes_executeAll (swaps : List Swap) :
    ∃ after memory t, (executeAll r swaps).Completes m after { m with memory } t ∧
      Moved (origin swaps) swaps.length r m.memory after memory := by
  induction swaps generalizing m r with
  | nil => exact ⟨r, m.memory, [], rfl, .refl r m.memory⟩
  | cons s later ih =>
    obtain ⟨done, middle, t₁, first, moved⟩ := completes_execute unguarded r s
    obtain ⟨after, memory, t₂, others, moved'⟩ :=
      ih (m := { m with memory := middle }) unguarded done.registers
    refine ⟨after, memory, _, first.bind others, ?_⟩
    rw [List.length_cons, Nat.add_comm]
    exact moved.trans moved'

/-- On memory without a read-only region exchanges lose no word and make none twice, in whatever order
they come and wherever the stack is. The words in the register pairs, in their shadows and on top of
the stack are those that were there before, and the order of the exchanges alone says which went where.
Nothing else changes in the registers or in memory but the program counter. The same exchanges in reverse
order then bring back all of it. -/
theorem exchanges_permute (swaps : List Swap) :
    ∃ after memory t, (executeAll r swaps).Completes m after { m with memory } t ∧
      (all.map (Place.held after memory)).Perm (all.map (Place.held r m.memory)) ∧
      Moved (origin swaps) swaps.length r m.memory after memory ∧
      ∃ t', (executeAll after swaps.reverse).Completes ({ m with memory } : Ram)
        { r with pc := r.pc + UInt16.ofNat (2 * swaps.length) } m t' := by
  obtain ⟨after, memory, t, completes, moved⟩ := completes_executeAll unguarded r swaps
  obtain ⟨last, restored, t', back, moved'⟩ :=
    completes_executeAll (m := { m with memory }) unguarded after swaps.reverse
  have round := moved.trans moved'
  rw [← origin_append, origin_reverse, List.length_reverse, ← Nat.two_mul] at round
  refine ⟨after, memory, t, completes, moved.perm (map_origin_perm swaps), moved, t', ?_⟩
  rw [← round.registers_eq]
  have memory_eq := round.memory_eq
  subst memory_eq
  exact back

end

/-- A word of which the low byte is at the last address and the high byte at the first. -/
def overTheEnd : Ram := ({} : Ram).load 0xFFFF [0x34, 0x12]

/-- The stack is over the end of memory. What was on top of it goes to DE, what was in DE goes there,
and HL has its word again. -/
theorem exchanges_permute_overTheEnd :
    overTheEnd.romSize = 0 ∧ ∃ after memory t t',
      (executeAll { de := 0x5678, hl := 0xABCD, sp := 0xFFFF }
        [top, registers .deHl, top]).Completes overTheEnd after { overTheEnd with memory } t ∧
      after.de = 0x1234 ∧ after.hl = 0xABCD ∧ memory.getWord after.sp = 0x5678 ∧
      (executeAll after [top, registers .deHl, top]).Completes
        ({ overTheEnd with memory } : Ram)
        { de := 0x5678, hl := 0xABCD, sp := 0xFFFF, pc := 6 } overTheEnd t' := by
  obtain ⟨after, memory, t, completes, -, moved, t', back⟩ :=
    exchanges_permute (m := overTheEnd) rfl { de := 0x5678, hl := 0xABCD, sp := 0xFFFF }
      [top, registers .deHl, top]
  have stacked : overTheEnd.memory.getWord 0xFFFF = 0x1234 := by decide +kernel
  exact ⟨rfl, after, memory, t, t', completes, (moved.held .de).trans stacked, moved.held .hl,
    moved.held .top, back⟩

end Swap

end Z80
